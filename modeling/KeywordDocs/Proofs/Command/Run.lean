import KeywordDocs.Proofs.Command.Libraries

/-!
# Runs That Document Many Libraries

A run with a command line plans what it has to do and does it.
-/

namespace KeywordDocs.Command

open Files Files.Disk Report

variable {α β : Type} {m : Run α} {d d' : Disk} {p : Place}

def IsFile (d : Disk) (p : Place) : Prop := ∃ content, d.at? p = some (.file content)

lemma IsFile.of_adds {ways : List Place} (h : IsFile d p) (hadds : Adds ways d d') : IsFile d' p := by
  rcases h with ⟨content, hfile⟩
  exact ⟨content, (hadds.file_iff content).mpr hfile⟩

lemma IsFile.of_write {path : String} {content : ByteArray} (h : IsFile d p)
  (hwrote : d.write path content = .ok d') : IsFile d' p := by
  rcases h with ⟨old, hfile⟩
  rw [IsFile, at?_write hwrote]
  by_cases hp : p = d.leadsTo path
  · exact ⟨content, if_pos hp⟩
  · exact ⟨old, (if_neg hp).trans hfile⟩

/-- Runs that take no file away. -/
structure Steady (m : Run α) : Prop where
  oblivious : Oblivious m
  keeps : ∀ d p, IsFile d p → IsFile (on m d).2 p

namespace Steady

lemma pure (a : α) : Steady (Pure.pure a : Run α) := ⟨.pure a, fun _ _ hfile => hfile⟩

lemma of_speaks {m : Run Unit} (h : Speaks m) : Steady m := by
  refine ⟨h.oblivious, fun d p hfile => ?_⟩
  rw [h.on_eq]
  exact hfile

lemma bind {f : α → Run β} (hm : Steady m) (hf : ∀ a, Steady (f a)) : Steady (m >>= f) := by
  refine ⟨hm.oblivious.bind fun a => (hf a).oblivious, fun d p hfile => ?_⟩
  have hfirst := hm.keeps d p hfile
  rw [on_bind fun a => (hf a).oblivious]
  rcases hm : on m d with ⟨r, d'⟩
  rw [hm] at hfirst
  cases r with
  | error e => exact hfirst
  | ok a => exact (hf a).keeps d' p hfirst

lemma forM {g : α → Run Unit} (hg : ∀ a, Steady (g a)) (l : List α) : Steady (l.forM g) := by
  induction l with
  | nil => exact .pure ()
  | cons a l ih => exact (hg a).bind fun _ => ih

lemma get {f : Disk → Run β} (hf : ∀ d, Steady (f d)) :
  Steady (MonadState.get >>= fun s => f s.disk) :=
  ⟨.get fun d => (hf d).oblivious, fun d => (hf d).keeps d⟩

lemma onDisk (failure : Fault → Failure) {change : Disk → Except Fault Disk}
  (h : ∀ d d' p, change d = .ok d' → IsFile d p → IsFile d' p) : Steady (onDisk failure change) := by
  refine ⟨.onDisk failure change, fun d p hfile => ?_⟩
  rw [on_onDisk]
  cases hchange : change d with
  | error e => exact hfile
  | ok d' => exact h d d' p hchange hfile

end Steady

lemma ensureDirectory_steady (path : Path) : Steady (ensureDirectory path) :=
  .onDisk _ fun _ _ _ hmade hfile => hfile.of_adds (ensureDirectory_adds hmade)

lemma writeText_steady (path text : String) : Steady (writeText path text) :=
  .onDisk _ fun _ _ _ hwrote hfile => hfile.of_write hwrote

lemma require_steady (failure : Fault → Failure) (r : Except Fault α) : Steady (require failure r) := by
  refine ⟨require_oblivious failure r, fun d p hfile => ?_⟩
  rw [require, on_orFail]
  exact hfile

variable (c : Conditions) (o : Options) (base : Path) (config : Json) (done : List Documented)

lemma writeDashboard_steady (cards : List Site.Card) (site : Json) :
  Steady (writeDashboard c base cards site) :=
  (ensureDirectory_steady _).bind fun _ => (require_steady _ _).bind fun _ =>
    (writeText_steady _ _).bind fun _ => (writeText_steady _ _).bind fun _ =>
      (writeText_steady _ _).bind fun _ => (writeText_steady _ _).bind fun _ =>
        (require_steady _ _).bind fun _ => writeText_steady _ _

lemma linkPage_steady (path : String) : Steady (linkPage path) := by
  have hpage : ∀ d : Disk, Steady (do
      let page ← require (.ofFile path) (d.readText path)
      let linked ← require .ofFault (Site.addNavigation page "../index.html")
      writeText path linked) := fun d =>
    (require_steady _ _).bind fun _ => (require_steady _ _).bind fun _ => writeText_steady _ _
  exact Steady.get hpage

lemma makeDashboard_steady : Steady (makeDashboard c base config done) :=
  (Steady.of_speaks (.sayEither c _ _)).bind fun _ => (writeDashboard_steady c base _ _).bind fun _ =>
    .forM (fun _ => linkPage_steady _) _

lemma tellDashboard_speaks : Speaks (tellDashboard c base done) := by
  unfold tellDashboard
  dsimp only
  split
  · exact .say _
  · exact .forM fun _ _ => .say _

lemma tellLibraries_speaks : Speaks (tellLibraries c base done) := .forM fun _ _ => .say _

lemma serveSite_speaks : Speaks (serveSite c o) := by
  unfold serveSite
  split
  · exact .sayEither c _ _
  · exact (Speaks.sayEither c _ _).bind (.sayEither c _ _)
  · split
    · exact .sayEither c _ _
    · exact .sayEither c _ _

lemma presentDashboard_steady : Steady (presentDashboard c o config done) := by
  rw [presentDashboard]
  split
  · exact (makeDashboard_steady c _ config done).bind fun _ => .of_speaks (tellDashboard_speaks c _ done)
  · exact .pure ()

lemma closeMany_steady : Steady (closeMany c o done) := by
  rw [closeMany]
  split
  · split
    · exact (Steady.of_speaks (serveSite_speaks c o)).bind fun _ => .pure _
    · exact (Steady.of_speaks (.sayEither c _ _)).bind fun _ => .pure 1
  · split
    · exact .pure _
    · exact (Steady.of_speaks (tellLibraries_speaks c _ done)).bind fun _ => .pure _

lemma concludeMany_steady : Steady (concludeMany c o config done) :=
  (presentDashboard_steady c o config done).bind fun _ => closeMany_steady c o done

lemma concludeMany_oblivious : Oblivious (concludeMany c o config done) :=
  (concludeMany_steady c o config done).oblivious

variable {c o config done}

lemma on_concludeMany (h : o.dashboard = false) (d : Disk) :
  ∃ code, on (concludeMany c o config done) d = (.ok code, d) := by
  have hnone : hasDashboard o done = false := by rw [hasDashboard, h, Bool.false_and]
  rw [concludeMany, on_bind fun _ => (closeMany_steady c o done).oblivious, presentDashboard, hnone,
    if_neg Bool.false_ne_true, on_pure]
  dsimp only
  rw [closeMany, hnone, if_neg Bool.false_ne_true]
  split
  · refine ⟨1, ?_⟩
    rw [on_bind fun _ => .pure 1, tellError, (Speaks.sayEither c _ _).on_eq]
    rfl
  · refine ⟨exitCode done, ?_⟩
    split
    · rfl
    · rw [on_bind fun _ => .pure _, (tellLibraries_speaks c _ done).on_eq]
      rfl

lemma ended_concludeMany (hdashboard : o.dashboard = false) (hserve : o.serve = false) (s : Session) :
  ended (concludeMany c o config done) s = (.ok (exitCode done),
    { s with said := (if done.isEmpty then [] else librarySummary c o.base done).reverse ++ s.said }) := by
  have hnone : hasDashboard o done = false := by rw [hasDashboard, hdashboard, Bool.false_and]
  rw [concludeMany, ended_bind, presentDashboard, hnone, if_neg Bool.false_ne_true, ended_pure]
  dsimp only
  rw [closeMany, hserve, if_neg Bool.false_ne_true]
  split
  · rfl
  · rw [ended_bind, tellLibraries, ended_forM_say]
    rfl

variable (c : Conditions) (o : Options) (config : Json) (entries : List Json)

lemma documentEntries_oblivious : Oblivious (documentEntries c o config entries) := by
  rw [documentEntries]
  split
  · exact documentParallel_oblivious c o config _ entries
  · exact documentAll_oblivious c o config _ entries

lemma perform_oblivious : Oblivious (perform c o (.many config entries)) :=
  (documentEntries_oblivious c o config entries).bind fun done => concludeMany_oblivious c o config done

variable {c o config entries}

lemma tellable_of_ok (entry : Json) {result : String × Option Documented}
  (h : ∀ made, madeBy (.ok result) = some made → Tellable c (.inl made)) :
  Tellable c (outcomeIn entry (.ok result)) := by
  rcases result with ⟨name, made⟩
  cases made with
  | none =>
    refine .inr ⟨fun _ hmade => (by cases hmade), fun _ _ hname => ?_⟩
    cases hname
    exact ⟨name, rfl⟩
  | some made => exact h made rfl

lemma on_documentEntries (h : allSucceed c o config o.base d entries)
  (htell : TellsMade c o config o.base d entries) :
  on (documentEntries c o config entries) d =
    (.ok ((librarySteps c o config o.base d entries).filterMap fun step => madeBy step.1),
      diskAfter c o config o.base d entries) := by
  rw [documentEntries]
  split
  · refine on_documentParallel fun entry _ step hstep => ?_
    have hok := List.all_eq_true.mp h step hstep
    cases hresult : step.1 with
    | error e =>
      rw [hresult] at hok
      cases hok
    | ok result => exact tellable_of_ok entry (hresult ▸ htell step hstep)
  · exact on_documentAll h

lemma on_documentEntries_eq_ok {done : List Documented} {d' : Disk}
  (h : on (documentEntries c o config entries) d = (.ok done, d')) :
  done = ((librarySteps c o config o.base d entries).filterMap fun step => madeBy step.1) ∧
    d' = diskAfter c o config o.base d entries := by
  rw [documentEntries] at h
  split at h
  · exact on_documentParallel_eq_ok h
  · cases hall : allSucceed c o config o.base d entries with
    | true =>
      rw [on_documentAll hall] at h
      cases h
      exact ⟨rfl, rfl⟩
    | false =>
      rcases on_documentAll_of_error hall with ⟨e, he⟩
      rw [h] at he
      cases he

variable {c : Conditions} {o : Options} {config : Json} {entries : List Json} {disk : Disk}
  {words : List String} {task : Task} {s : Session}

def endingOf (r : Except Failure Nat × Session) : Ending × Session :=
  match r with
  | (.ok code, s) => (.exit code, s)
  | (.error e, s) => (.failed e, s)

lemma runWords_eq (hread : readOptions words = .ok o)
  (hplan : ended (plan c o) { disk } = (.ok task, s)) :
  runWords c words disk = endingOf (ended (perform c o task) s) := by
  have hrun : ended (run c o) { disk } = ended (perform c o task) s := by rw [run, ended_bind, hplan]
  rw [runWords, hread]
  dsimp only
  rw [← hrun]
  rfl

lemma runWords_many (hread : readOptions words = .ok o)
  (hplan : ended (plan c o) { disk } = (.ok (.many config entries), s)) :
  (runWords c words disk).1 = (endingOf ((on (perform c o (.many config entries)) s.disk).1, s)).1 ∧
    (runWords c words disk).2.disk = (on (perform c o (.many config entries)) s.disk).2 := by
  rw [runWords_eq hread hplan, (perform_oblivious c o config entries).ended_eq]
  rcases on (perform c o (.many config entries)) s.disk with ⟨r, d'⟩
  cases r <;> exact ⟨rfl, rfl⟩

def plansMany (test : Json → List Json → Session → Bool) : Except Failure Task × Session → Bool
  | (.ok (.many config entries), s) => test config entries s
  | _ => false

lemma exists_of_plansMany {test : Json → List Json → Session → Bool}
  {r : Except Failure Task × Session} (h : plansMany test r) :
  ∃ config entries s, r = (.ok (.many config entries), s) ∧ test config entries s := by
  rcases r with ⟨r, s⟩
  cases r with
  | error e => cases h
  | ok task =>
    cases task with
    | many config entries => exact ⟨config, entries, s, rfl, h⟩
    | _ => cases h

/-- A console without styles. -/
def plainConsole : Conditions where
  styled := false
  now := ""

/-- The words that ask for the documentation of many libraries in Markdown. -/
def manyWords : List String := ["-c", "c.json", "--multi-lib", "-f", "markdown"]

/-- What these words ask for. -/
def manyOptions : Options where
  config := some "c.json"
  multi := true
  format := "markdown"

end KeywordDocs.Command
