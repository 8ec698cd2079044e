import KeywordDocs.Command.Run
import KeywordDocs.Proofs.Files.Disk

/-!
# Documenting Libraries on a Disk

Nothing that a run does to a disk depends on what has been said. So it is a function from disks to what it
gives and the disk it leaves (`on`). Each of many libraries has its turn on the disk that the one before it
leaves (`librarySteps`).
-/

namespace KeywordDocs.Command

open Files Report List

variable {α β : Type} {m : Run α} {f : α → Run β} {g : α → Run Unit} (failure : Fault → Failure) (a : α)
  (change : Disk → Except Fault Disk) (s : Session) (d : Disk)

/-- How a computation ends, and the session it leaves. -/
def ended (m : Run α) (s : Session) : Except Failure α × Session := StateT.run (ExceptT.run m) s

lemma ended_pure : ended (pure a) s = (.ok a, s) := rfl

lemma ended_bind (m : Run α) (f : α → Run β) (s : Session) :
  ended (m >>= f) s = match ended m s with
    | (.ok a, s') => ended (f a) s'
    | (.error e, s') => (.error e, s') := by
  show (ExceptT.bindCont f (ended m s).1 : StateM Session (Except Failure β)).run (ended m s).2 = _
  rcases ended m s with ⟨r, s'⟩
  cases r <;> rfl

lemma ended_tryCatch (m : Run α) (f : Failure → Run α) (s : Session) :
  ended (tryCatch m f) s = match ended m s with
    | (.ok a, s') => (.ok a, s')
    | (.error e, s') => ended (f e) s' := by
  rcases hm : ended m s with ⟨r, s'⟩
  have hrun : m s = (r, s') := hm
  simp only [ended, tryCatch, tryCatchThe, MonadExceptOf.tryCatch, ExceptT.tryCatch,
    ExceptT.run_mk, StateT.run, bind, StateT.bind, hrun]
  cases r <;> rfl

def Session.heard (before : List Output) : Session := { s with said := s.said ++ before }

lemma Session.heard_heard (a b : List Output) : (s.heard a).heard b = s.heard (a ++ b) := by
  rw [heard, heard, heard, append_assoc]

/-- Runs that do not depend on what was said before them. -/
def Oblivious (m : Run α) : Prop :=
  ∀ d said, ended m ⟨d, said⟩ = ((ended m ⟨d, []⟩).1, (ended m ⟨d, []⟩).2.heard said)

/-- What a computation gives on a disk, and the disk it leaves. -/
def on (m : Run α) (d : Disk) : Except Failure α × Disk := ((ended m ⟨d, []⟩).1, (ended m ⟨d, []⟩).2.disk)

lemma Oblivious.ended_eq (h : Oblivious m) (s : Session) :
  ended m s = ((on m s.disk).1, ⟨(on m s.disk).2, (ended m ⟨s.disk, []⟩).2.said ++ s.said⟩) :=
  h s.disk s.said

lemma Oblivious.heard (h : Oblivious m) (d : Disk) (said more : List Output) :
  ended m ⟨d, said ++ more⟩ = ((ended m ⟨d, said⟩).1, (ended m ⟨d, said⟩).2.heard more) := by
  rw [h d (said ++ more), h d said, Session.heard_heard]

lemma Oblivious.pure : Oblivious (Pure.pure a : Run α) := fun _ _ => rfl

lemma Oblivious.throw (e : Failure) : Oblivious (MonadExcept.throw e : Run α) := fun _ _ => rfl

lemma Oblivious.bind (hm : Oblivious m) (hf : ∀ a, Oblivious (f a)) : Oblivious (m >>= f) := by
  intro d said
  rw [ended_bind, ended_bind, hm d said]
  rcases ended m ⟨d, []⟩ with ⟨r, ⟨d', said'⟩⟩
  cases r with
  | error e => rfl
  | ok a => exact (hf a).heard d' said' said

lemma Oblivious.get {f : Disk → Run β} (hf : ∀ d, Oblivious (f d)) :
  Oblivious (MonadState.get >>= fun s => f s.disk) := fun d said =>
  hf d d said

lemma Oblivious.tryCatch {f : Failure → Run α} (hm : Oblivious m) (hf : ∀ e, Oblivious (f e)) :
  Oblivious (tryCatch m f) := by
  intro d said
  rw [ended_tryCatch, ended_tryCatch, hm d said]
  rcases ended m ⟨d, []⟩ with ⟨r, ⟨d', said'⟩⟩
  cases r with
  | ok a => rfl
  | error e => exact (hf e).heard d' said' said

lemma Oblivious.forM (hg : ∀ a, Oblivious (g a)) (l : List α) : Oblivious (l.forM g) := by
  induction l with
  | nil => exact .pure ()
  | cons a l ih => exact (hg a).bind fun _ => ih

lemma Oblivious.orFail (r : Except Failure α) : Oblivious (orFail r) := by
  cases r with
  | ok a => exact .pure a
  | error e => exact .throw e

lemma Oblivious.say (o : Output) : Oblivious (say o) := fun _ _ => rfl

lemma Oblivious.onDisk : Oblivious (onDisk failure change) := by
  intro d said
  show ended (Command.orFail ((change d).mapError failure) >>= _) ⟨d, said⟩ =
    ((ended (Command.orFail ((change d).mapError failure) >>= _) ⟨d, []⟩).1,
      (ended (Command.orFail ((change d).mapError failure) >>= _) ⟨d, []⟩).2.heard said)
  cases change d <;> rfl

lemma on_pure : on (pure a) d = (.ok a, d) := rfl

lemma on_bind (hf : ∀ a, Oblivious (f a)) (d : Disk) : on (m >>= f) d = match on m d with
    | (.ok a, d') => on (f a) d'
    | (.error e, d') => (.error e, d') := by
  rw [on, on, ended_bind]
  rcases ended m ⟨d, []⟩ with ⟨r, ⟨d', said⟩⟩
  cases r with
  | error e => rfl
  | ok a =>
    dsimp only
    rw [hf a d' said]
    rfl

lemma on_tryCatch {f : Failure → Run α} (hf : ∀ e, Oblivious (f e)) (d : Disk) :
  on (tryCatch m f) d = match on m d with
    | (.ok a, d') => (.ok a, d')
    | (.error e, d') => on (f e) d' := by
  rw [on, on, ended_tryCatch]
  rcases ended m ⟨d, []⟩ with ⟨r, ⟨d', said⟩⟩
  cases r with
  | ok a => rfl
  | error e =>
    dsimp only
    rw [hf e d' said]
    rfl

lemma on_orFail (r : Except Failure α) (d : Disk) : on (orFail r) d = (r, d) := by
  cases r <;> rfl

lemma on_get (f : Disk → Run β) (d : Disk) : on (get >>= fun s => f s.disk) d = on (f d) d := rfl

lemma on_onDisk : on (onDisk failure change) d = match change d with
    | .ok d' => (.ok (), d')
    | .error f => (.error (failure f), d) := by
  show on (orFail ((change d).mapError failure) >>= _) d = _
  cases change d <;> rfl

lemma on_bind_eq_ok (hf : ∀ a, Oblivious (f a)) {d d' : Disk} {b : β}
  (h : on (m >>= f) d = (.ok b, d')) :
  ∃ a d₁, on m d = (.ok a, d₁) ∧ on (f a) d₁ = (.ok b, d') := by
  rw [on_bind hf] at h
  rcases hm : on m d with ⟨r, d₁⟩
  rw [hm] at h
  cases r with
  | error e => cases h
  | ok a => exact ⟨a, d₁, rfl, h⟩

lemma on_forM_disk (hg : ∀ a, Oblivious (g a)) (h : ∀ a d, (on (g a) d).2 = d)
  (l : List α) (d : Disk) : (on (l.forM g) d).2 = d := by
  induction l generalizing d with
  | nil => rfl
  | cons a l ih =>
    have hfirst := h a d
    show (on (g a >>= fun _ => l.forM g) d).2 = d
    rw [on_bind fun _ => .forM hg l]
    rcases hm : on (g a) d with ⟨r, d₁⟩
    rw [hm] at hfirst
    cases r with
    | error e => exact hfirst
    | ok u => exact (ih d₁).trans hfirst

/-- Runs that do nothing but say something. -/
structure Speaks (m : Run Unit) : Prop where
  oblivious : Oblivious m
  on_eq : ∀ d, on m d = (.ok (), d)

lemma Speaks.pure : Speaks (Pure.pure ()) := ⟨.pure (), fun _ => rfl⟩

lemma Speaks.say (o : Output) : Speaks (say o) := ⟨.say o, fun _ => rfl⟩

lemma Speaks.bind {m n : Run Unit} (hm : Speaks m) (hn : Speaks n) : Speaks (m >>= fun _ => n) := by
  refine ⟨hm.oblivious.bind fun _ => hn.oblivious, fun d => ?_⟩
  rw [on_bind fun _ => hn.oblivious, hm.on_eq]
  exact hn.on_eq d

lemma Speaks.forM {l : List α} (hg : ∀ a ∈ l, Speaks (g a)) : Speaks (l.forM g) := by
  induction l with
  | nil => exact .pure
  | cons a l ih => exact (hg a mem_cons_self).bind (ih fun b hb => hg b (mem_cons_of_mem a hb))

variable (c : Conditions) (o : Options) (config : Json) (base : Path) (entry : Json) (entries : List Json)

lemma Speaks.sayEither (styled : Output) (plain : List String) : Speaks (sayEither c styled plain) := by
  rw [Command.sayEither]
  split
  · exact .say styled
  · exact .forM fun line _ => .say (.plain line)

lemma Speaks.report (p : Problem) : Speaks (report c p) := .forM fun o _ => .say o

lemma ended_forM_say (l : List Output) (s : Session) :
  ended (l.forM say) s = (.ok (), { s with said := l.reverse ++ s.said }) := by
  induction l generalizing s with
  | nil => rfl
  | cons o l ih =>
    show ended (say o >>= fun _ => l.forM say) s = _
    rw [ended_bind]
    show ended (l.forM say) { s with said := o :: s.said } = _
    rw [ih, reverse_cons, append_assoc]
    rfl

lemma ensureDirectory_oblivious (p : Path) : Oblivious (ensureDirectory p) := .onDisk _ _

lemma writeText_oblivious (path text : String) : Oblivious (writeText path text) := .onDisk _ _

lemma require_oblivious {α : Type} (failure : Fault → Failure) (r : Except Fault α) :
  Oblivious (require failure r) := .orFail _

lemma finishPage_oblivious (o : PageOrder) (r : Problem ⊕ Draft) : Oblivious (finishPage c o r) := by
  cases r with
  | inl p => exact (Speaks.report c p).oblivious.bind fun _ => .pure none
  | inr draft =>
    exact (ensureDirectory_oblivious _).bind fun _ => (Oblivious.orFail _).bind fun _ =>
      (writeText_oblivious _ _).bind fun _ => .pure _

lemma makePage_oblivious (o : PageOrder) : Oblivious (makePage c o) :=
  Oblivious.get fun d => (Oblivious.orFail (draftPage c o d)).bind (finishPage_oblivious c o)

lemma recordPage_oblivious (t : Target) (order : PageOrder) : Oblivious (recordPage c t order) :=
  (makePage_oblivious c order).bind fun _ => .pure _

lemma documentLibrary_oblivious : Oblivious (documentLibrary c o config base entry) :=
  (Oblivious.orFail _).bind fun _ => (ensureDirectory_oblivious _).bind fun _ =>
    (Oblivious.orFail _).bind fun _ => recordPage_oblivious c _ _

lemma tellMissing_speaks (result : String × Option Documented) : Speaks (tellMissing c result) := by
  rcases result with ⟨name, made⟩
  cases made with
  | none => exact .sayEither c _ _
  | some made => exact .pure

lemma documentAll_oblivious : Oblivious (documentAll c o config base entries) := by
  induction entries generalizing c with
  | nil => exact .pure []
  | cons entry entries ih =>
    exact (documentLibrary_oblivious c o config base entry).bind fun result =>
      (tellMissing_speaks c result).oblivious.bind fun _ => (ih _).bind fun _ => .pure _

/-- What comes of each library, and the disk after it, if all of them are documented one after
another whatever comes of the others. -/
def librarySteps (c : Conditions) (o : Options) (config : Json) (base : Path) :
  Disk → List Json → List (Except Failure (String × Option Documented) × Disk)
  | _, [] => []
  | d, entry :: rest =>
    let step := on (documentLibrary c o config base entry) d
    step :: librarySteps (c.after entry) o config base step.2 rest

def diskAfter (c : Conditions) (o : Options) (config : Json) (base : Path) :
  Disk → List Json → Disk
  | d, [] => d
  | d, entry :: rest =>
    diskAfter (c.after entry) o config base (on (documentLibrary c o config base entry) d).2 rest

/-- Whether no library fails. -/
def allSucceed (d : Disk) (entries : List Json) : Bool :=
  (librarySteps c o config base d entries).all fun step => step.1.isOk

def outcomeIn (entry : Json) : Except Failure (String × Option Documented) → Outcome
  | .ok result => madeOutcome result
  | .error e => failedOutcome entry e

def outcomesIn (d : Disk) (entries : List Json) : List Outcome :=
  (entries.zip (librarySteps c o config base d entries)).map fun turn => outcomeIn turn.1 turn.2.1

lemma outcomeOf_oblivious : Oblivious (outcomeOf c o config base entry) :=
  ((documentLibrary_oblivious c o config base entry).bind fun _ => .pure _).tryCatch fun _ => .pure _

lemma outcomes_oblivious : Oblivious (outcomes c o config base entries) := by
  induction entries generalizing c with
  | nil => exact .pure []
  | cons entry entries ih =>
    exact (outcomeOf_oblivious c o config base entry).bind fun _ => (ih _).bind fun _ => .pure _

variable {c o config base entry entries} {d d₁ : Disk}

lemma of_allSucceed_cons (h : allSucceed c o config base d (entry :: entries)) :
  ∃ name made d₁, on (documentLibrary c o config base entry) d = (.ok (name, made), d₁) ∧
    allSucceed (c.after entry) o config base d₁ entries := by
  rw [allSucceed, librarySteps, all_cons, Bool.and_eq_true] at h
  rcases hstep : on (documentLibrary c o config base entry) d with ⟨r, d₁⟩
  rw [hstep] at h
  cases r with
  | error e => cases h.1
  | ok result => exact ⟨result.1, result.2, d₁, rfl, h.2⟩

def madeBy (r : Except Failure (String × Option Documented)) : Option Documented := r.toOption.bind Prod.snd

lemma on_documentAll_cons (d : Disk) : on (documentAll c o config base (entry :: entries)) d =
  match on (documentLibrary c o config base entry) d with
    | (.ok result, d₁) =>
      ((on (documentAll (c.after entry) o config base entries) d₁).1.map (result.2.toList ++ ·),
        (on (documentAll (c.after entry) o config base entries) d₁).2)
    | (.error e, d₁) => (.error e, d₁) := by
  have hrest := documentAll_oblivious (c.after entry) o config base entries
  have hadd : ∀ result : String × Option Documented,
      Oblivious (do return result.2.toList ++ (← documentAll (c.after entry) o config base entries)) :=
    fun result => hrest.bind fun _ => .pure _
  rw [documentAll, on_bind fun result => (tellMissing_speaks c result).oblivious.bind fun _ => hadd result]
  rcases on (documentLibrary c o config base entry) d with ⟨r, d₁⟩
  cases r with
  | error e => rfl
  | ok result =>
    dsimp only
    rw [on_bind fun _ => hadd result, (tellMissing_speaks c result).on_eq]
    dsimp only
    rw [on_bind fun _ => .pure _]
    rcases on (documentAll (c.after entry) o config base entries) d₁ with ⟨r, d₂⟩
    cases r <;> rfl

lemma on_documentAll (h : allSucceed c o config base d entries) :
  on (documentAll c o config base entries) d =
    (.ok ((librarySteps c o config base d entries).filterMap fun step => madeBy step.1),
      diskAfter c o config base d entries) := by
  induction entries generalizing c d with
  | nil => rfl
  | cons entry entries ih =>
    rcases of_allSucceed_cons h with ⟨name, made, d₁, hstep, hrest⟩
    rw [on_documentAll_cons, librarySteps, diskAfter, hstep]
    dsimp only
    rw [ih hrest]
    cases made <;> rfl

lemma on_documentAll_of_error (h : allSucceed c o config base d entries = false) :
  ∃ e, (on (documentAll c o config base entries) d).1 = .error e := by
  induction entries generalizing c d with
  | nil => cases h
  | cons entry entries ih =>
    rw [allSucceed, librarySteps, all_cons] at h
    rw [on_documentAll_cons]
    rcases hstep : on (documentLibrary c o config base entry) d with ⟨r, d₁⟩
    rw [hstep] at h
    cases r with
    | error e => exact ⟨e, rfl⟩
    | ok result =>
      rcases ih h with ⟨e, he⟩
      refine ⟨e, ?_⟩
      dsimp only
      rw [he]
      rfl

lemma on_outcomeOf (d : Disk) : on (outcomeOf c o config base entry) d =
  (.ok (outcomeIn entry (on (documentLibrary c o config base entry) d).1),
    (on (documentLibrary c o config base entry) d).2) := by
  rw [outcomeOf, on_tryCatch fun _ => .pure _, on_bind fun _ => .pure _]
  rcases on (documentLibrary c o config base entry) d with ⟨r, d₁⟩
  cases r <;> rfl

lemma on_outcomes (d : Disk) (entries : List Json) :
  on (outcomes c o config base entries) d =
    (.ok (outcomesIn c o config base d entries), diskAfter c o config base d entries) := by
  induction entries generalizing c d with
  | nil => rfl
  | cons entry entries ih =>
    have hrest := outcomes_oblivious (c.after entry) o config base entries
    rw [outcomes, on_bind fun _ => hrest.bind fun _ => .pure _, on_outcomeOf]
    dsimp only
    rw [on_bind fun _ => .pure _, ih]
    rfl

lemma getLeft?_outcomeIn (entry : Json) (r : Except Failure (String × Option Documented)) :
  (outcomeIn entry r).getLeft? = madeBy r := by
  cases r with
  | error e => rfl
  | ok result =>
    rcases result with ⟨name, made⟩
    cases made <;> rfl

lemma filterMap_outcomes (d : Disk) (entries : List Json) :
  (outcomesIn c o config base d entries).filterMap Sum.getLeft? =
    (librarySteps c o config base d entries).filterMap fun step => madeBy step.1 := by
  induction entries generalizing c d with
  | nil => rfl
  | cons entry entries ih =>
    rw [outcomesIn, librarySteps, zip_cons_cons, map_cons, filterMap_cons,
      filterMap_cons, getLeft?_outcomeIn, ← outcomesIn, ih]

/-- A styled console can tell of a library that is documented if it takes the markup with the name in it,
and of one that is not if the name is a text. -/
def Tellable (c : Conditions) (outcome : Outcome) : Prop :=
  c.styled = false ∨
    (∀ made, outcome = .inl made → ∀ i n, c.refuses (madeMarkup (progressText i n) made) = none) ∧
      ∀ name reason, outcome = .inr (name, reason) → ∃ s, name = .str s

/-- The console can tell of every library that is documented. -/
def TellsMade (c : Conditions) (o : Options) (config : Json) (base : Path) (d : Disk)
  (entries : List Json) : Prop :=
  ∀ step ∈ librarySteps c o config base d entries, ∀ made, madeBy step.1 = some made →
    Tellable c (.inl made)

lemma tellOutcome_oblivious (c : Conditions) (progress : String) (outcome : Outcome) :
  Oblivious (tellOutcome c progress outcome) := by
  unfold tellOutcome
  split
  · split
    · split
      · exact .throw _
      · exact .say _
    · exact .say _
  · split
    · split
      · exact .say _
      · exact .throw _
    · exact (Oblivious.say _).bind fun _ => .say _

lemma Tellable.speaks {outcome : Outcome} (h : Tellable c outcome) (i n : Nat) :
  Speaks (tellOutcome c (progressText i n) outcome) := by
  unfold tellOutcome
  split
  case h_1 made =>
    rcases h with hplain | ⟨htaken, -⟩
    · rw [hplain, if_neg Bool.false_ne_true]
      exact .say _
    · rw [htaken made rfl]
      split <;> exact .say _
  case h_2 name reason =>
    rcases h with hplain | ⟨-, hname⟩
    · rw [hplain, if_neg Bool.false_ne_true]
      exact (Speaks.say _).bind (.say _)
    · rcases hname name reason rfl with ⟨text, rfl⟩
      split
      · exact .say _
      · exact (Speaks.say _).bind (.say _)

lemma tellOutcomes_oblivious (c : Conditions) (outcomes : List Outcome) :
  Oblivious (tellOutcomes c outcomes) :=
  .forM (fun _ => tellOutcome_oblivious c _ _) _

lemma tellOutcomes_speaks {outcomes : List Outcome} (h : ∀ outcome ∈ outcomes, Tellable c outcome) :
  Speaks (tellOutcomes c outcomes) :=
  .forM fun _ hmem => (h _ (of_mem_zip hmem).2).speaks _ _

lemma collect_oblivious (c : Conditions) (outcomes : List Outcome) :
  Oblivious (tellOutcomes c outcomes >>= fun _ => pure (outcomes.filterMap Sum.getLeft?)) :=
  (tellOutcomes_oblivious c outcomes).bind fun _ => .pure _

lemma documentParallel_oblivious (c : Conditions) (o : Options) (config : Json) (base : Path)
  (entries : List Json) : Oblivious (documentParallel c o config base entries) :=
  (Speaks.sayEither c _ _).oblivious.bind fun _ =>
    (outcomes_oblivious c o config base entries).bind (collect_oblivious c)

lemma on_documentParallel (h : ∀ entry ∈ entries, ∀ step ∈ librarySteps c o config base d entries,
    Tellable c (outcomeIn entry step.1)) :
  on (documentParallel c o config base entries) d =
    (.ok ((librarySteps c o config base d entries).filterMap fun step => madeBy step.1),
      diskAfter c o config base d entries) := by
  have htell := collect_oblivious c
  have hall := outcomes_oblivious c o config base entries
  have hspeaks : Speaks (tellOutcomes c (outcomesIn c o config base d entries)) := by
    refine tellOutcomes_speaks fun outcome houtcome => ?_
    rcases mem_map.mp houtcome with ⟨turn, hturn, rfl⟩
    rcases of_mem_zip hturn with ⟨hentry, hstep⟩
    exact h turn.1 hentry turn.2 hstep
  rw [documentParallel, on_bind fun _ => hall.bind htell, (Speaks.sayEither c _ _).on_eq]
  dsimp only
  rw [on_bind htell, on_outcomes]
  dsimp only
  rw [on_bind fun _ => .pure _, hspeaks.on_eq, ← filterMap_outcomes]
  rfl

lemma tellOutcome_disk (c : Conditions) (progress : String) (outcome : Outcome) (d : Disk) :
  (on (tellOutcome c progress outcome) d).2 = d := by
  unfold tellOutcome
  split
  all_goals
    split
    · split <;> rfl
    · rfl

lemma tellOutcomes_disk (c : Conditions) (outcomes : List Outcome) (d : Disk) :
  (on (tellOutcomes c outcomes) d).2 = d :=
  on_forM_disk (fun _ => tellOutcome_oblivious c _ _) (fun _ => tellOutcome_disk c _ _) _ d

lemma on_documentParallel_eq_ok {done : List Documented} {d' : Disk}
  (h : on (documentParallel c o config base entries) d = (.ok done, d')) :
  done = ((librarySteps c o config base d entries).filterMap fun step => madeBy step.1) ∧
    d' = diskAfter c o config base d entries := by
  have htell := collect_oblivious c
  have hall := outcomes_oblivious c o config base entries
  rcases on_bind_eq_ok (fun _ => hall.bind htell) h with ⟨_, d₁, hstart, h⟩
  rw [(Speaks.sayEither c _ _).on_eq] at hstart
  cases hstart
  rcases on_bind_eq_ok htell h with ⟨outcomes, d₂, houtcomes, h⟩
  rw [on_outcomes] at houtcomes
  cases houtcomes
  rcases on_bind_eq_ok (fun _ => .pure _) h with ⟨_, d₃, htold, h⟩
  have hdisk := tellOutcomes_disk c (outcomesIn c o config base d entries)
    (diskAfter c o config base d entries)
  rw [htold] at hdisk
  cases h
  exact ⟨filterMap_outcomes d entries, hdisk⟩

end KeywordDocs.Command
