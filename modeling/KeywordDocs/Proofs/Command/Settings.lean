import KeywordDocs.Proofs.Command.Run
import KeywordDocs.Proofs.Files.Growth
import KeywordDocs.Proofs.Highlight.Outcome
import KeywordDocs.Proofs.Site.Settings

/-!
# Checks of Settings

A configuration file can hold any JSON value, and every check of it assumes that the earlier ones found what
they ask about. But no check asks whether the settings or the listed libraries are objects.

A run that is rejected should leave the disk as it found it. It does for six of the seven reasons to reject a
run; the seventh is that a listed library has no source.
-/

namespace KeywordDocs

namespace Json

variable {key : String} {v : Json}

/-- Whether a value is an object. -/
def isObject : Json → Bool
  | .obj _ => true
  | _ => false

/-- Whether something can be looked for in a value. -/
def isContainer : Json → Bool
  | .obj _ | .arr _ | .str _ => true
  | _ => false

/-- Values in which a key is found: among the members of an object, the items of a list, or the parts
of a text. -/
def Holds (key : String) : Json → Prop
  | .obj members => key ∈ members.map Prod.fst
  | .arr items => some key ∈ items.map text?
  | .str s => key.toList <:+: s.toList
  | _ => False

instance (key : String) : (v : Json) → Decidable (Holds key v)
  | .obj members => inferInstanceAs (Decidable (key ∈ members.map Prod.fst))
  | .arr items => inferInstanceAs (Decidable (some key ∈ items.map text?))
  | .str s => inferInstanceAs (Decidable (key.toList <:+: s.toList))
  | .null | .bool _ | .int _ | .float _ => inferInstanceAs (Decidable False)

lemma isContainer_of_isObject (h : v.isObject) : v.isContainer := by
  cases v with
  | obj members => rfl
  | _ => cases h

lemma isObject_of_field? {value : Json} (h : v.field? key = some value) : v.isObject := by
  cases v with
  | obj members => rfl
  | _ => cases h

end Json

namespace Command

open Files Report Json

variable {key : String} {v entry : Json} {entries : List Json}

lemma hasKey_eq (h : v.isContainer) (key : String) :
  hasKey key v = .ok (decide (Holds key v)) := by
  cases v with
  | obj members =>
    rw [hasKey]
    congr 1
    rw [Bool.eq_iff_iff, Option.isSome_iff_ne_none, ne_eq, member?_eq_none_iff, not_not,
      decide_eq_true_eq]
    rfl
  | arr items =>
    rw [hasKey]
    congr 1
    rw [Bool.eq_iff_iff, List.any_eq_true, decide_eq_true_eq]
    simp only [decide_eq_true_eq, Holds, List.mem_map]
  | str s =>
    rw [hasKey]
    congr 1
    rw [Bool.eq_iff_iff, decide_eq_true_eq]
    exact Text.containsChars_iff
  | _ => cases h

lemma hasKey_eq_error (h : v.isContainer = false) (key : String) :
  hasKey key v = .error .wrongKind := by
  cases v with
  | obj members => cases h
  | arr items => cases h
  | str s => cases h
  | _ => rfl

/-- Entries that cannot be checked: they are no objects, and either nothing can be looked for in them or
the key of the source is found there. -/
def Unchecked (entry : Json) : Prop := entry.isObject = false ∧ (entry.isContainer → Holds "source" entry)

def Sourced (entry : Json) : Prop := (entry.field? "source").any isTruthy

instance : DecidablePred Unchecked := fun _ => inferInstanceAs (Decidable (_ ∧ _))

instance : DecidablePred Sourced := fun _ => inferInstanceAs (Decidable (_ = true))

lemma Sourced.isObject (h : Sourced entry) : entry.isObject := by
  rcases (Option.any_eq_true _ _).mp h with ⟨value, hvalue, -⟩
  exact isObject_of_field? hvalue

lemma lacksSource_obj (members : List (String × Json)) :
  lacksSource (.obj members) = .ok (!((member? "source" members).any isTruthy)) := by
  cases hmember : member? "source" members with
  | none => simp [lacksSource, hasKey, hmember, bind, Except.bind, pure, Except.pure]
  | some value => simp [lacksSource, hasKey, requireField, hmember, bind, Except.bind, pure, Except.pure]

lemma lacksSource_of_not_isObject (h : entry.isObject = false) :
  lacksSource entry = if Unchecked entry then .error (if entry.isContainer then .missingAttribute
    else .wrongKind) else .ok true := by
  have hfield : requireField "source" entry = .error .missingAttribute := by
    cases entry with
    | obj members => cases h
    | _ => rfl
  by_cases hcontainer : entry.isContainer
  · by_cases hholds : Holds "source" entry
    · have hunchecked : Unchecked entry := ⟨h, fun _ => hholds⟩
      rw [if_pos hunchecked, if_pos hcontainer, lacksSource, hasKey_eq hcontainer, hfield,
        decide_eq_true hholds]
      rfl
    · have hchecked : ¬ Unchecked entry := fun hun => hholds (hun.2 hcontainer)
      rw [if_neg hchecked, lacksSource, hasKey_eq hcontainer, decide_eq_false hholds]
      rfl
  · have hscalar : entry.isContainer = false := Bool.eq_false_iff.mpr hcontainer
    have hunchecked : Unchecked entry := ⟨h, fun hc => absurd hc hcontainer⟩
    rw [if_pos hunchecked, if_neg hcontainer, lacksSource, hasKey_eq_error hscalar]
    rfl

lemma lacksSource_isOk_iff : (∃ lacks, lacksSource entry = .ok lacks) ↔ ¬ Unchecked entry := by
  cases hobject : entry.isObject with
  | true =>
    cases entry with
    | obj members =>
      refine ⟨fun _ hun => ?_, fun _ => ⟨_, lacksSource_obj members⟩⟩
      cases hun.1
    | _ => cases hobject
  | false =>
    rw [lacksSource_of_not_isObject hobject]
    by_cases hun : Unchecked entry
    · simp [hun]
    · simp [hun]

lemma lacksSource_eq_false_iff : lacksSource entry = .ok false ↔ Sourced entry := by
  cases hobject : entry.isObject with
  | true =>
    cases entry with
    | obj members =>
      rw [lacksSource_obj, Except.ok.injEq, Bool.not_eq_false']
      rfl
    | _ => cases hobject
  | false =>
    rw [lacksSource_of_not_isObject hobject]
    refine ⟨fun h => ?_, fun h => ?_⟩
    · by_cases hun : Unchecked entry <;> simp [hun] at h
    · rw [h.isObject] at hobject
      cases hobject

lemma incompleteEntries_eq_ok {lacking : List Bool} (h : entries.mapM lacksSource = .ok lacking) :
  ∃ numbers, incompleteEntries entries = .ok numbers ∧
    (numbers = [] ↔ ∀ lacks ∈ lacking, lacks = false) := by
  refine ⟨_, by rw [incompleteEntries, h]; rfl, ?_⟩
  rw [List.filterMap_eq_nil_iff]
  have hsecond : ((List.range lacking.length).zip lacking).map Prod.snd = lacking :=
    List.map_snd_zip (by rw [List.length_range])
  constructor
  · intro hnone lacks hlacks
    rw [← hsecond] at hlacks
    rcases List.mem_map.mp hlacks with ⟨numbered, hmem, rfl⟩
    have hnumber := hnone numbered hmem
    cases hvalue : numbered.2 with
    | false => rfl
    | true => simp [hvalue] at hnumber
  · intro hall numbered hmem
    have hfalse := hall numbered.2 (List.of_mem_zip hmem).2
    simp [hfalse]

lemma incompleteEntries_isOk_iff :
  (∃ numbers, incompleteEntries entries = .ok numbers) ↔ ∀ entry ∈ entries, ¬ Unchecked entry := by
  have hall : (∃ lacking, entries.mapM lacksSource = .ok lacking) ↔ ∀ entry ∈ entries, ¬ Unchecked entry := by
    rw [Highlight.mapM_succeeds_iff]
    exact forall₂_congr fun _ _ => lacksSource_isOk_iff
  rw [← hall]
  constructor
  · rintro ⟨numbers, hnumbers⟩
    rcases Highlight.bind_eq_ok.mp hnumbers with ⟨lacking, hlacking, -⟩
    exact ⟨lacking, hlacking⟩
  · rintro ⟨lacking, hlacking⟩
    rcases incompleteEntries_eq_ok hlacking with ⟨numbers, hnumbers, -⟩
    exact ⟨numbers, hnumbers⟩

lemma incompleteEntries_eq_nil_iff :
  incompleteEntries entries = .ok [] ↔ ∀ entry ∈ entries, Sourced entry := by
  constructor
  · intro hnone entry hentry
    rcases Highlight.bind_eq_ok.mp hnone with ⟨lacking, hlacking, -⟩
    rcases incompleteEntries_eq_ok hlacking with ⟨numbers, hnumbers, hnil⟩
    rw [hnone] at hnumbers
    cases hnumbers
    rcases Highlight.forall₂_exists_right (Highlight.mapM_eq_ok_iff.mp hlacking) hentry with
      ⟨lacks, hlacks, hentry⟩
    rw [hnil.mp rfl lacks hlacks] at hentry
    exact lacksSource_eq_false_iff.mp hentry
  · intro hall
    have hsucceeds : ∃ lacking, entries.mapM lacksSource = .ok lacking :=
      Highlight.mapM_succeeds_iff.mpr fun entry hentry =>
        ⟨false, lacksSource_eq_false_iff.mpr (hall entry hentry)⟩
    rcases hsucceeds with ⟨lacking, hlacking⟩
    rcases incompleteEntries_eq_ok hlacking with ⟨numbers, hnumbers, hnil⟩
    have hempty : numbers = [] := by
      refine hnil.mpr fun lacks hlacks => ?_
      rcases (Highlight.mem_mapM_iff hlacking).mp hlacks with ⟨entry, hentry, hvalue⟩
      rw [lacksSource_eq_false_iff.mpr (hall entry hentry)] at hvalue
      cases hvalue
      rfl
    rw [hnumbers, hempty]

variable {c : Conditions} {o : Options} {config : Json}

/-- Settings with libraries in a list that is not empty and with an object that describes the site. -/
def ListsLibraries (config : Json) : Prop := listedEntries config ≠ [] ∧ (config.field? "site").any isObject

/-- Settings without the keys of many libraries. -/
def NamesNone (config : Json) : Prop := ¬ Holds "site" config ∧ ¬ Holds "libraries" config

instance : DecidablePred ListsLibraries := fun _ => inferInstanceAs (Decidable (_ ∧ _))

/-- The reasons to reject a run, each with the problem that is reported. -/
inductive Rejects (o : Options) (config : Json) : Problem → Prop
  | noConfiguration (hmulti : o.multi) (hfile : o.config.filter (· ≠ "") = none) :
      Rejects o config .noConfiguration
  | noLibraries {found : Option String} (hmany : o.wantsMany)
      (hnone : ∀ entries, config.field? "libraries" ≠ some (.arr entries)) :
      Rejects o config (.noLibraries found)
  | emptyLibraries (hmany : o.wantsMany)
      (hempty : config.field? "libraries" = some (.arr [])) : Rejects o config .emptyLibraries
  | noSite (hmany : o.wantsMany) (hlisted : listedEntries config ≠ [])
      (hsite : (config.field? "site").any isObject = false) : Rejects o config .noSite
  | incompleteLibraries {lacking : List (String × List String)} (hmany : o.wantsMany)
      (hlists : ListsLibraries config) (hlacking : ∃ entry ∈ listedEntries config, ¬ Sourced entry) :
      Rejects o config (.incompleteLibraries lacking)
  | forbiddenKeys {keys : List String} (hone : o.wantsMany = false) (hkeys : ¬ NamesNone config) :
      Rejects o config (.forbiddenKeys keys)
  | noInput (hone : o.wantsMany = false) (hnone : NamesNone config)
      (hinput : o.input.filter (· ≠ "") = none) : Rejects o config .noInput

lemma ListsLibraries.isObject (h : ListsLibraries config) : config.isObject := by
  rcases (Option.any_eq_true _ _).mp h.2 with ⟨site, hsite, -⟩
  exact isObject_of_field? hsite

lemma checkMany_eq_error (h : config.isObject = false) :
  checkMany config = .error .missingAttribute := by
  cases config with
  | obj members => cases h
  | _ => rfl

lemma listedEntries_eq_nil (h : ∀ entries, config.field? "libraries" ≠ some (.arr entries)) :
  listedEntries config = [] := by
  rw [listedEntries]
  split
  case h_1 entries hentries => cases (h entries) hentries
  case h_2 => rfl

lemma checkMany_cases (hmany : o.wantsMany) (h : config.isObject) :
  (checkMany config = .ok .accepted ∧ ListsLibraries config) ∨
    (¬ ListsLibraries config ∧ ∃ p, checkMany config = .ok (.rejected p) ∧ Rejects o config p ∧
      ∀ lacking, p ≠ .incompleteLibraries lacking) := by
  cases config with
  | obj members =>
    by_cases hnone : ∀ entries, member? "libraries" members ≠ some (.arr entries)
    · have hfound : ∃ found, checkMany (.obj members) = .ok (.rejected (.noLibraries found)) := by
        rw [checkMany, requireField]
        cases hlibraries : member? "libraries" members with
        | none => exact ⟨_, rfl⟩
        | some value =>
          cases value with
          | arr entries => cases (hnone entries) hlibraries
          | _ => exact ⟨_, rfl⟩
      rcases hfound with ⟨found, hfound⟩
      exact .inr ⟨fun hlists => hlists.1 (listedEntries_eq_nil hnone), _, hfound,
        .noLibraries hmany hnone, fun _ h => by cases h⟩
    · rcases not_forall_not.mp hnone with ⟨entries, hlibraries⟩
      cases entries with
      | nil =>
        refine .inr ⟨fun hlists => hlists.1 ?_, .emptyLibraries, ?_, .emptyLibraries hmany hlibraries,
          fun _ h => by cases h⟩
        · rw [listedEntries, field?, hlibraries]
        · rw [checkMany, requireField, hlibraries]
          rfl
      | cons entry entries =>
        have hlisted : listedEntries (.obj members) ≠ [] := by
          rw [listedEntries, field?, hlibraries]
          exact List.cons_ne_nil _ _
        -- Whatever describes the site, it is an object or refused.
        have hverdict : checkMany (.obj members) =
            .ok (if (member? "site" members).any isObject then .accepted else .rejected .noSite) := by
          rw [checkMany, requireField, hlibraries]
          simp only [field?]
          cases member? "site" members with
          | none => rfl
          | some site => cases site <;> rfl
        cases hsite : (member? "site" members).any isObject with
        | true => exact .inl ⟨by rw [hverdict, hsite]; rfl, hlisted, hsite⟩
        | false =>
          refine .inr ⟨fun hlists => ?_, .noSite, by rw [hverdict, hsite]; rfl,
            .noSite hmany hlisted hsite, fun _ h => by cases h⟩
          exact Bool.false_ne_true (hsite.symm.trans hlists.2)
  | _ => cases h

lemma checkKeys_eq_error (h : config.isContainer = false) :
  checkKeys config = .error .wrongKind := by
  rw [checkKeys, List.filterM, List.filterAuxM, hasKey_eq_error h]
  rfl

lemma checkKeys_cases (h : config.isContainer) :
  (checkKeys config = .ok .accepted ∧ NamesNone config) ∨
    ∃ keys, checkKeys config = .ok (.rejected (.forbiddenKeys keys)) ∧ ¬ NamesNone config := by
  unfold checkKeys
  simp only [hasKey_eq h, List.filterM, List.filterAuxM]
  by_cases hsite : Holds "site" config <;> by_cases hlibraries : Holds "libraries" config <;>
    simp [NamesNone, hsite, hlibraries, pure, Except.pure, bind, Except.bind]

variable {s : Session} {disk : Disk} {words : List String} {file text : String} {p : Problem}

/-- Settings at which the checks fail instead of reporting something. -/
def Throws (o : Options) (disk : Disk) (config : Json) : Prop :=
  if o.wantsMany then
    config.isObject = false ∨ (ListsLibraries config ∧
      ((disk.ensureDirectory o.base).isOk = false ∨ ∃ entry ∈ listedEntries config, Unchecked entry))
  else config.isContainer = false

instance (o : Options) (disk : Disk) (config : Json) : Decidable (Throws o disk config) := by
  delta Throws
  infer_instance

/-- What settings that pass the checks give to do. -/
inductive Accepts (o : Options) (config : Json) : Task → Prop
  | many (hmany : o.wantsMany) (hlists : ListsLibraries config)
      (hsourced : ∀ entry ∈ listedEntries config, Sourced entry) :
      Accepts o config (.many config (listedEntries config))
  | one {input : String} (hone : o.wantsMany = false) (hcontainer : config.isContainer)
      (hnone : NamesNone config) (hinput : o.input = some input) (hnamed : input ≠ "") :
      Accepts o config (.one config input)

def Leaves (o : Options) (disk : Disk) (p : Problem) (left : Disk) : Prop :=
  ((∀ lacking, p ≠ .incompleteLibraries lacking) ∧ left = disk) ∨
    ((∃ lacking, p = .incompleteLibraries lacking) ∧ disk.ensureDirectory o.base = .ok left)

structure Rejected (c : Conditions) (o : Options) (config : Json) (disk : Disk) (p : Problem)
  (s : Session) : Prop where
  reason : Rejects o config p
  said : p.outputs c.styled <:+ s.outputs
  left : Leaves o disk p s.disk

inductive Ends (c : Conditions) (o : Options) (config : Json) (disk : Disk) :
  Except Failure Task × Session → Prop
  | thrown (hthrows : Throws o disk config) (e : Failure) (s : Session) :
      Ends c o config disk (.error e, s)
  | reported {p : Problem} {s : Session} (hthrows : ¬ Throws o disk config)
      (hrejected : Rejected c o config disk p s) : Ends c o config disk (.ok .nothing, s)
  | accepted {task : Task} {s : Session} (hthrows : ¬ Throws o disk config)
      (htask : Accepts o config task)
      (hdisk : s.disk = disk ∨ disk.ensureDirectory o.base = .ok s.disk) :
      Ends c o config disk (.ok task, s)

lemma ended_require {α : Type} (failure : Fault → Failure) (r : Except Fault α) (s : Session) :
  ended (require failure r) s = (r.mapError failure, s) := by
  cases r <;> rfl

lemma ended_say (x : Output) (s : Session) :
  ended (say x) s = (.ok (), { s with said := x :: s.said }) := rfl

lemma ended_ensureDirectory (p : Path) (s : Session) :
  ended (ensureDirectory p) s = match s.disk.ensureDirectory p with
    | .ok d => (.ok (), { s with disk := d })
    | .error f => (.error (.ofFile p.toText f), s) := by
  show ended (require _ (s.disk.ensureDirectory p) >>= _) s = _
  cases s.disk.ensureDirectory p <;> rfl

lemma Speaks.ended_eq {m : Run Unit} (h : Speaks m) (s : Session) :
  ended m s = (.ok (), ⟨s.disk, (ended m ⟨s.disk, []⟩).2.said ++ s.said⟩) := by
  rw [h.oblivious.ended_eq, h.on_eq]

lemma Ends.of_report (hthrows : ¬ Throws o disk config) (hreason : Rejects o config p)
  (hleft : Leaves o disk p s.disk) :
  Ends c o config disk (ended (do report c p; return Task.nothing) s) := by
  rw [ended_bind, report, ended_forM_say]
  refine .reported hthrows ⟨hreason, ⟨s.outputs, ?_⟩, hleft⟩
  rw [Session.outputs, Session.outputs, List.reverse_append, List.reverse_reverse]

lemma planInput_ends (hone : o.wantsMany = false) (hcontainer : config.isContainer)
  (hnone : NamesNone config) (hthrows : ¬ Throws o disk config) (said : List Output) :
  Ends c o config disk (ended (planInput c o config) ⟨disk, said⟩) := by
  rw [planInput]
  cases hinput : o.input.filter (· ≠ "") with
  | none => exact .of_report hthrows (.noInput hone hnone hinput) (.inl ⟨fun _ h => (by cases h), rfl⟩)
  | some input =>
    rcases Option.filter_eq_some_iff.mp hinput with ⟨hgiven, hnamed⟩
    exact .accepted hthrows (.one hone hcontainer hnone hgiven (of_decide_eq_true hnamed)) (.inl rfl)

lemma planOne_ends (hone : o.wantsMany = false) (s : Session) :
  Ends c o config s.disk (ended (planOne c o config) s) := by
  have hthrows : Throws o s.disk config ↔ config.isContainer = false := by
    rw [Throws, if_neg (by rw [hone]; exact Bool.false_ne_true)]
  rw [planOne, ended_bind, ended_require]
  cases hcontainer : config.isContainer with
  | false =>
    rw [checkKeys_eq_error hcontainer]
    exact .thrown (hthrows.mpr hcontainer) _ s
  | true =>
    have hno : ¬ Throws o s.disk config := by
      rw [hthrows, hcontainer]
      decide
    rcases checkKeys_cases hcontainer with ⟨hverdict, hnone⟩ | ⟨keys, hverdict, hnone⟩
    · have hspeaks : Speaks (noteParallel c o) := by
        unfold noteParallel
        split
        · exact .sayEither c _ _
        · exact .pure
      rw [hverdict]
      show Ends c o config _ (ended (noteParallel c o >>= fun _ => planInput c o config) s)
      rw [ended_bind, hspeaks.ended_eq]
      exact planInput_ends hone hcontainer hnone hno _
    · rw [hverdict]
      exact .of_report hno (.forbiddenKeys hone hnone) (.inl ⟨fun _ h => (by cases h), rfl⟩)

lemma checkEntries_ends (hmany : o.wantsMany) (hlists : ListsLibraries config) (s : Session) :
  Ends c o config s.disk (ended (do
    ensureDirectory o.base
    let incomplete ← require .ofFault (incompleteEntries (listedEntries config))
    if incomplete.isEmpty then return Task.many config (listedEntries config)
    report c (.incompleteLibraries (incomplete.map fun (n : Nat) => (Number.ofInt n, ["source"])))
    return Task.nothing) s) := by
  have hthrows : Throws o s.disk config ↔ (s.disk.ensureDirectory o.base).isOk = false ∨
      ∃ entry ∈ listedEntries config, Unchecked entry := by
    rw [Throws, if_pos hmany, hlists.isObject]
    simp [hlists]
  rw [ended_bind, ended_ensureDirectory]
  cases hbase : s.disk.ensureDirectory o.base with
  | error f => exact .thrown (hthrows.mpr (.inl (by rw [hbase]; rfl))) _ s
  | ok d =>
    dsimp only
    cases hentries : incompleteEntries (listedEntries config) with
    | error f =>
      refine .thrown (hthrows.mpr (.inr ?_)) _ _
      by_contra hnone
      have hall : ∀ entry ∈ listedEntries config, ¬ Unchecked entry := fun entry hentry hun =>
        hnone ⟨entry, hentry, hun⟩
      rcases incompleteEntries_isOk_iff.mpr hall with ⟨numbers, hnumbers⟩
      rw [hentries] at hnumbers
      cases hnumbers
    | ok numbers =>
      have hno : ¬ Throws o s.disk config := by
        rw [hthrows, hbase]
        rintro (hfails | ⟨entry, hentry, hun⟩)
        · cases hfails
        · exact incompleteEntries_isOk_iff.mp ⟨numbers, hentries⟩ entry hentry hun
      cases numbers with
      | nil =>
        exact .accepted hno (.many hmany hlists (incompleteEntries_eq_nil_iff.mp hentries)) (.inr hbase)
      | cons n numbers =>
        have hlacking : ∃ entry ∈ listedEntries config, ¬ Sourced entry := by
          by_contra hnone
          have hall : ∀ entry ∈ listedEntries config, Sourced entry := fun entry hentry => by
            by_contra hno
            exact hnone ⟨entry, hentry, hno⟩
          rw [incompleteEntries_eq_nil_iff.mpr hall] at hentries
          cases hentries
        exact .of_report (s := { s with disk := d }) hno (.incompleteLibraries hmany hlists hlacking)
          (.inr ⟨⟨_, rfl⟩, hbase⟩)

lemma planMany_ends (hmany : o.wantsMany) (s : Session) :
  Ends c o config s.disk (ended (planMany c o config) s) := by
  rw [planMany, ended_bind, ended_require]
  cases hobject : config.isObject with
  | false =>
    rw [checkMany_eq_error hobject]
    refine .thrown ?_ _ s
    rw [Throws, if_pos hmany]
    exact .inl hobject
  | true =>
    rcases checkMany_cases hmany hobject with ⟨hverdict, hlists⟩ | ⟨hlists, p, hverdict, hreason, hother⟩
    · rw [hverdict]
      dsimp only [Except.mapError]
      split
      · rw [ended_bind, ended_say]
        exact checkEntries_ends hmany hlists { s with said := _ :: s.said }
      · exact checkEntries_ends hmany hlists s
    · rw [hverdict]
      refine .of_report ?_ hreason (.inl ⟨hother, rfl⟩)
      rw [Throws, if_pos hmany, hobject]
      simp [hlists]

lemma planWith_ends (s : Session) :
  Ends c o config s.disk (ended (plan.planWith c o config) s) := by
  rw [plan.planWith]
  cases hmany : o.wantsMany with
  | true => exact planMany_ends hmany s
  | false => exact planOne_ends hmany s

/-- The settings that a run checks. A file that is missing, that cannot be read or that is not JSON
counts as empty. -/
def settingsOf (c : Conditions) (o : Options) (disk : Disk) : Json :=
  match o.config.filter (· ≠ "") with
  | none => .obj []
  | some file =>
    match disk.readText file with
    | .ok text => (readConfiguration c.styled file (some text)).1
    | .error _ => .obj []

lemma ended_loadSettings (c : Conditions) (file : String) (disk : Disk) :
  ∃ said, ended (loadSettings c file) { disk } = (.ok (match disk.readText file with
    | .ok text => (readConfiguration c.styled file (some text)).1
    | .error _ => .obj []), ⟨disk, said⟩) := by
  have hget : ended (get : Run Session) { disk } = (.ok { disk }, { disk }) := rfl
  rw [loadSettings, ended_bind, hget]
  dsimp only
  cases htext : disk.readText file with
  | ok text =>
    dsimp only
    rw [loadSettings.settle, ended_bind, ended_forM_say]
    exact ⟨_, rfl⟩
  | error f => cases f <;> exact ⟨_, rfl⟩

lemma plan_ends (c : Conditions) (o : Options) (disk : Disk) :
  Ends c o (settingsOf c o disk) disk (ended (plan c o) { disk }) := by
  unfold plan settingsOf
  cases hfile : o.config.filter (· ≠ "") with
  | none =>
    cases hmulti : o.multi with
    | true =>
      have hthrows : ¬ Throws o disk (.obj []) := by
        rw [Throws, Options.wantsMany, hmulti]
        simp [Json.isObject, ListsLibraries, listedEntries, field?, member?]
      exact .of_report (s := { disk }) hthrows (.noConfiguration hmulti hfile)
        (.inl ⟨fun _ h => (by cases h), rfl⟩)
    | false => exact planWith_ends { disk }
  | some file =>
    rcases ended_loadSettings c file disk with ⟨said, hload⟩
    rw [ended_bind, hload]
    exact planWith_ends ⟨disk, said⟩

lemma settingsOf_eq (hfile : o.config = some file) (hnamed : file ≠ "")
  (htext : disk.readText file = .ok text)
  (hjson : Json.read (Text.uniformNewlines text) = .ok config) : settingsOf c o disk = config := by
  have hsettled : readConfiguration c.styled file (some text) = (config, []) := by
    rw [readConfiguration]
    simp only [hjson]
  rw [settingsOf, hfile, Option.filter_some, if_pos (decide_eq_true hnamed)]
  dsimp only
  rw [htext]
  dsimp only
  rw [hsettled]

lemma Rejects.not_accepts (h : Rejects o config p)
  (hfile : o.config.filter (· ≠ "") = none → config = .obj []) (task : Task) : ¬ Accepts o config task := by
  intro haccepts
  cases haccepts with
  | many hmany hlists hsourced =>
    cases h with
    | noConfiguration _ hnone =>
      rw [hfile hnone] at hlists
      exact hlists.1 rfl
    | noLibraries _ hnone => exact hlists.1 (listedEntries_eq_nil hnone)
    | emptyLibraries _ hempty => exact hlists.1 (by rw [listedEntries, hempty])
    | noSite _ _ hsite => rw [hlists.2] at hsite; cases hsite
    | incompleteLibraries _ _ hlacking =>
      rcases hlacking with ⟨entry, hentry, hno⟩
      exact hno (hsourced entry hentry)
    | forbiddenKeys hone => rw [hmany] at hone; cases hone
    | noInput hone => rw [hmany] at hone; cases hone
  | one hone hcontainer hnone hinput hnamed =>
    cases h with
    | noConfiguration hmulti => rw [Options.wantsMany, hmulti] at hone; cases hone
    | noLibraries hmany => rw [hone] at hmany; cases hmany
    | emptyLibraries hmany => rw [hone] at hmany; cases hmany
    | noSite hmany => rw [hone] at hmany; cases hmany
    | incompleteLibraries hmany => rw [hone] at hmany; cases hmany
    | forbiddenKeys _ hkeys => exact hkeys hnone
    | noInput _ _ hmissing =>
      rw [hinput, Option.filter_some, if_pos (decide_eq_true hnamed)] at hmissing
      cases hmissing

lemma not_throws_of_isObject (hobject : config.isObject)
  (hentries : ∀ entry ∈ listedEntries config, entry.isObject)
  (hbase : (disk.ensureDirectory o.base).isOk) : ¬ Throws o disk config := by
  rw [Throws]
  split
  · rw [hobject, hbase]
    rintro (hno | ⟨-, hno | ⟨entry, hentry, hun⟩⟩)
    · cases hno
    · cases hno
    · rw [Unchecked, hentries entry hentry] at hun
      cases hun.1
  · rw [isContainer_of_isObject hobject]
    decide

lemma Accepts.isContainer {task : Task} (h : Accepts o config task) :
  config.isContainer ∧ (o.wantsMany → config.isObject ∧
    ∀ entry ∈ listedEntries config, entry.isObject ∧ Sourced entry) := by
  cases h with
  | many hmany hlists hsourced =>
    refine ⟨isContainer_of_isObject hlists.isObject, fun _ => ⟨hlists.isObject, fun entry hentry => ?_⟩⟩
    exact ⟨(hsourced entry hentry).isObject, hsourced entry hentry⟩
  | one hone hcontainer =>
    refine ⟨hcontainer, fun hmany => ?_⟩
    rw [hone] at hmany
    cases hmany

lemma outputs_ne_nil (styled : Bool) (p : Problem) : p.outputs styled ≠ [] := by
  cases styled with
  | true => exact List.cons_ne_nil _ _
  | false => simp [Problem.outputs]

lemma runWords_of_error {e : Failure} (hread : readOptions words = .ok o)
  (hplan : ended (plan c o) { disk } = (.error e, s)) : runWords c words disk = (.failed e, s) := by
  have hrun : ended (run c o) { disk } = (.error e, s) := by rw [run, ended_bind, hplan]
  have hrunWords : runWords c words disk = endingOf (ended (run c o) { disk }) := by
    rw [runWords, hread]
    rfl
  rw [hrunWords, hrun]
  rfl

/-- What comes of any settings. The checks do one of three things, and the shape of the settings tells
which: they fail, and the run fails with them; they report a problem, and the exit code is 1; or they
give something to do. In the first case the settings or some listed library are no object, or the
directory cannot be made. In the last case the settings of many libraries are an object, and their
libraries are objects with a source. The settings of one library can also be a list or a text. -/
theorem settings_checked (hread : readOptions words = .ok o) (hfile : o.config = some file)
  (hnamed : file ≠ "") (htext : disk.readText file = .ok text)
  (hjson : Json.read (Text.uniformNewlines text) = .ok config) :
  ((Throws o disk config ∧ ∃ e s, ended (plan c o) { disk } = (.error e, s) ∧
      runWords c words disk = (.failed e, s)) ∨
    (¬ Throws o disk config ∧ (∀ task, ¬ Accepts o config task) ∧
      ∃ (p : Problem) (notes : List Output) (s : Session), ended (plan c o) { disk } = (.ok .nothing, s) ∧
        s.outputs = notes ++ p.outputs c.styled ∧ p.outputs c.styled ≠ [] ∧
        runWords c words disk = (.exit 1, s)) ∨
    (¬ Throws o disk config ∧ ∃ task s, Accepts o config task ∧
      ended (plan c o) { disk } = (.ok task, s))) ∧
  (∀ task, Accepts o config task → config.isContainer = true ∧
    (o.wantsMany = true → config.isObject = true ∧
      ∀ entry ∈ listedEntries config, entry.isObject = true ∧ Sourced entry)) ∧
  (config.isObject = true → (∀ entry ∈ listedEntries config, entry.isObject = true) →
    (disk.ensureDirectory o.base).isOk = true → ¬ Throws o disk config) := by
  refine ⟨?_, fun task htask => htask.isContainer, not_throws_of_isObject⟩
  have hends := plan_ends c o disk
  rw [settingsOf_eq hfile hnamed htext hjson] at hends
  rcases hplan : ended (plan c o) { disk } with ⟨r, s⟩
  rw [hplan] at hends
  cases hends with
  | thrown hthrows e => exact .inl ⟨hthrows, e, s, rfl, runWords_of_error hread hplan⟩
  | @reported p _ hthrows hrejected =>
    have hnone := hrejected.reason.not_accepts fun hno => by
      rw [hfile, Option.filter_some, if_pos (decide_eq_true hnamed)] at hno
      cases hno
    rcases hrejected.said with ⟨notes, hsaid⟩
    refine .inr (.inl ⟨hthrows, hnone, p, notes, s, rfl, hsaid.symm, outputs_ne_nil _ p, ?_⟩)
    rw [runWords_eq hread hplan]
    rfl
  | accepted hthrows htask => exact .inr (.inr ⟨hthrows, _, s, htask, rfl⟩)

/-- A configuration whose only library is a list with the word for a source in it. -/
def oddEntry : Disk := .ofFiles [] [("c.json", "\x7b\"site\": \x7b\x7d, \"libraries\": [[\"source\"]]\x7d")]

def readsAs (test : Json → Bool) (text : Except Fault String) : Bool :=
  match text with
  | .ok text =>
    match Json.read (Text.uniformNewlines text) with
    | .ok config => test config
    | .error _ => false
  | .error _ => false

lemma exists_of_readsAs {test : Json → Bool} {r : Except Fault String} (h : readsAs test r) :
  ∃ text config, r = .ok text ∧ Json.read (Text.uniformNewlines text) = .ok config ∧ test config := by
  cases r with
  | error f => cases h
  | ok text =>
    rw [readsAs] at h
    cases hjson : Json.read (Text.uniformNewlines text) with
    | error e => rw [hjson] at h; cases h
    | ok config =>
      rw [hjson] at h
      exact ⟨text, config, rfl, hjson, h⟩

/-- The checks of that configuration fail. -/
theorem settings_checked_odd_entry : ∃ config e s,
  Throws manyOptions oddEntry config ∧ config.isObject = true ∧
  runWords plainConsole manyWords oddEntry = (.failed e, s) := by
  have hread : readOptions manyWords = .ok manyOptions := by decide +kernel
  have htest : readsAs (fun config => config.isObject && decide (Throws manyOptions oddEntry config))
      (oddEntry.readText "c.json") := by
    decide +kernel
  rcases exists_of_readsAs htest with ⟨text, config, htext, hjson, htest⟩
  rw [Bool.and_eq_true, decide_eq_true_eq] at htest
  have hchecked := (settings_checked (c := plainConsole) hread rfl (by decide) htext hjson).1
  rcases hchecked with ⟨-, e, s, -, hfails⟩ | ⟨hno, -⟩ | ⟨hno, -⟩
  · exact ⟨config, e, s, htest.2, htest.1, hfails⟩
  · cases hno htest.2
  · cases hno htest.2

lemma plan_rejected (h : ended (plan c o) { disk } = (.ok .nothing, s)) :
  ¬ Throws o disk (settingsOf c o disk) ∧ ∃ p, Rejected c o (settingsOf c o disk) disk p s := by
  have hends := plan_ends c o disk
  rw [h] at hends
  cases hends with
  | reported hthrows hrejected => exact ⟨hthrows, _, hrejected⟩
  | accepted _ htask => cases htask

lemma plan_rejects_iff : (∃ s, ended (plan c o) { disk } = (.ok .nothing, s)) ↔
  ¬ Throws o disk (settingsOf c o disk) ∧ ∃ p, Rejects o (settingsOf c o disk) p := by
  constructor
  · rintro ⟨s, hs⟩
    rcases plan_rejected hs with ⟨hthrows, p, hp⟩
    exact ⟨hthrows, p, hp.reason⟩
  · rintro ⟨hthrows, p, hp⟩
    have hends := plan_ends c o disk
    rcases hended : ended (plan c o) { disk } with ⟨r, s⟩
    rw [hended] at hends
    cases hends with
    | thrown hthrown => cases hthrows hthrown
    | reported => exact ⟨s, rfl⟩
    | accepted _ htask => cases (hp.not_accepts (fun hnone => by rw [settingsOf, hnone]) _) htask

/-- What a rejected run leaves behind. A run is rejected if there is a reason for it and the checks do
not fail; it ends with exit code 1 and with a report of the problem. It leaves the disk as it was
unless the reason is a library without a source. Then it leaves the directory for the libraries, so
the disk is as it was only if that directory stood there. -/
theorem rejected_leaves (hread : readOptions words = .ok o) :
  ((∃ s, ended (plan c o) { disk } = (.ok .nothing, s)) ↔
    ¬ Throws o disk (settingsOf c o disk) ∧ ∃ p, Rejects o (settingsOf c o disk) p) ∧
  ∀ s, ended (plan c o) { disk } = (.ok .nothing, s) →
    runWords c words disk = (.exit 1, s) ∧ ∃ p, Rejects o (settingsOf c o disk) p ∧
      p.outputs c.styled <:+ s.outputs ∧
      ((∃ lacking, p = .incompleteLibraries lacking) → disk.ensureDirectory o.base = .ok s.disk) ∧
      (s.disk = disk ↔
        (∃ lacking, p = .incompleteLibraries lacking) → disk.isDirectory o.base.toText = true) := by
  refine ⟨plan_rejects_iff, fun s hs => ⟨by rw [runWords_eq hread hs]; rfl, ?_⟩⟩
  rcases plan_rejected hs with ⟨-, p, hreason, hsaid, hleft⟩
  refine ⟨p, hreason, hsaid, ?_⟩
  rcases hleft with ⟨hother, hsame⟩ | ⟨hlacking, hmade⟩
  · have hnot : ¬ ∃ lacking, p = .incompleteLibraries lacking := fun ⟨lacking, h⟩ => hother lacking h
    exact ⟨fun h => absurd h hnot, fun _ h => absurd h hnot, fun _ => hsame⟩
  · refine ⟨fun _ => hmade, ?_⟩
    rw [Disk.ensureDirectory_eq_self_iff hmade]
    exact ⟨fun h _ => h, fun h => h hlacking⟩

/-- A configuration whose only library has no source. -/
def sourceless : Disk := .ofFiles [] [("c.json", "\x7b\"site\": \x7b\x7d, \"libraries\": [\x7b\x7d]\x7d")]

def rejectsWith (test : Disk → Bool) : Except Failure Task × Session → Bool
  | (.ok .nothing, s) => test s.disk
  | _ => false

lemma exists_of_rejectsWith {test : Disk → Bool} {r : Except Failure Task × Session}
  (h : rejectsWith test r) : ∃ s, r = (.ok .nothing, s) ∧ test s.disk := by
  rcases r with ⟨r, s⟩
  cases r with
  | error e => cases h
  | ok task =>
    cases task with
    | nothing => exact ⟨s, rfl, h⟩
    | _ => cases h

/-- A run with that configuration is rejected because of the library, and leaves a directory behind. -/
theorem rejected_leaves_sourceless : ∃ s lacking,
  runWords plainConsole manyWords sourceless = (.exit 1, s) ∧
  (Problem.incompleteLibraries lacking).outputs false <:+ s.outputs ∧
  sourceless.isDirectory "output" = false ∧ s.disk.isDirectory "output" = true := by
  have hread : readOptions manyWords = .ok manyOptions := by decide +kernel
  have htest : rejectsWith (fun d => d.isDirectory "output" && !sourceless.isDirectory "output")
      (ended (plan plainConsole manyOptions) { disk := sourceless }) := by
    decide +kernel
  rcases exists_of_rejectsWith htest with ⟨s, hs, htest⟩
  rw [Bool.and_eq_true, Bool.not_eq_true'] at htest
  rcases (rejected_leaves (c := plainConsole) hread).2 s hs with
    ⟨hexit, p, -, hsaid, -, hsame⟩
  -- The disk is not as it was, which no other reason explains.
  have hlacking : ∃ lacking, p = .incompleteLibraries lacking := by
    by_contra hother
    have hdisk := hsame.mpr fun h => absurd h hother
    rw [hdisk, htest.2] at htest
    cases htest.1
  rcases hlacking with ⟨lacking, rfl⟩
  exact ⟨s, lacking, hexit, hsaid, htest.2, htest.1⟩

end Command

end KeywordDocs
