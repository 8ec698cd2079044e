import KeywordDocs.Proofs.Page.Found

/-!
# Defaults and Their Parameters

A parameter list keeps its defaults apart from the parameters they belong to, the last positional ones.
Methods and calls agree on that. Plain functions leave positional-only parameters out of the count, and show
defaults of other parameters if there are too many.
-/

namespace KeywordDocs.Discovery

open Source KeywordDocs.Module KeywordDocs.Signature Page Highlight List

variable {p : Parameters} {bare : List Param} {given : List (Param × Expr)}

section Written

/-- A parameter list is written as its positional parameters without a default, then those with one. -/
structure Spelled (p : Parameters) (bare : List Param) (given : List (Param × Expr)) : Prop where
  parameters : bare ++ given.map Prod.fst = p.positionalOnly ++ p.positional
  defaults : given.map Prod.snd = p.defaults

/-- All positional parameters with the defaults they are written with. -/
def bindings (bare : List Param) (given : List (Param × Expr)) : List (Param × Option Expr) :=
  bare.map (·, none) ++ given.map fun a => (a.1, some a.2)

def alignedDefaults (p : Parameters) : List (Option Expr) :=
  replicate ((p.positionalOnly ++ p.positional).length - p.defaults.length) none ++ p.defaults.map some

lemma Spelled.length_bare (hs : Spelled p bare given) :
  bare.length = (p.positionalOnly ++ p.positional).length - p.defaults.length := by
  rw [← hs.parameters, ← hs.defaults, length_append, length_map, length_map, Nat.add_sub_cancel]

lemma Spelled.bindings_eq (hs : Spelled p bare given) :
  bindings bare given = (p.positionalOnly ++ p.positional).zip (alignedDefaults p) := by
  refine zip_of_prod ?_ ?_
  · rw [← hs.parameters, bindings, map_append, map_map, map_map]
    exact congrArg (· ++ _) (map_id bare)
  · rw [alignedDefaults, ← hs.length_bare, ← hs.defaults, bindings, map_append, map_map, map_map, map_map]
    exact congrArg (· ++ _) map_const'

lemma Spelled.unique (hs : Spelled p bare given) {b : List Param} {g : List (Param × Expr)}
  (hs' : Spelled p b g) : b = bare ∧ g = given := by
  rcases append_inj (hs'.parameters.trans hs.parameters.symm) (hs'.length_bare.trans hs.length_bare.symm)
    with ⟨hbare, hfst⟩
  exact ⟨hbare, (zip_of_prod hfst (hs'.defaults.trans hs.defaults.symm)).trans (zip_of_prod rfl rfl).symm⟩

variable (h : p.defaults.length ≤ p.positionalOnly.length + p.positional.length)

include h

lemma exists_spelled : ∃ bare given, Spelled p bare given := by
  obtain ⟨bare, rest, hsplit, hrest⟩ : ∃ bare rest, bare ++ rest = p.positionalOnly ++ p.positional ∧
      rest.length = p.defaults.length := by
    refine ⟨_, _, take_append_drop ((p.positionalOnly ++ p.positional).length - p.defaults.length) _, ?_⟩
    rw [length_drop, length_append, Nat.sub_sub_self h]
  refine ⟨bare, rest.zip p.defaults, ?_, map_snd_zip (Nat.le_of_eq hrest.symm)⟩
  rw [map_fst_zip (Nat.le_of_eq hrest), hsplit]

lemma getElem?_alignedDefaults {i : Nat} (hi : i < p.positional.length) :
  (alignedDefaults p)[p.positionalOnly.length + i]? = some (p.defaultAt? i) := by
  rw [alignedDefaults, getElem?_append, length_replicate, length_append, Parameters.defaultAt?]
  by_cases hlate : p.positional.length ≤ i + p.defaults.length
  · -- Counted from the end, the place is the same with and without the positional-only parameters.
    have hsub : p.positionalOnly.length + i -
        (p.positionalOnly.length + p.positional.length - p.defaults.length) =
        i + p.defaults.length - p.positional.length := by omega
    rw [if_neg (by omega), hsub, if_pos hlate, getElem?_map, getElem?_eq_getElem (by omega), Option.map_some]
  · rw [if_pos (by omega), if_neg hlate, getElem?_replicate_of_lt (by omega)]

lemma Spelled.drop_bindings (hs : Spelled p bare given) :
  (bindings bare given).drop p.positionalOnly.length =
    p.positional.zipIdx.map fun a => (a.1, p.defaultAt? a.2) := by
  refine ext_getElem? fun i => ?_
  rw [hs.bindings_eq, getElem?_drop, getElem?_map, getElem?_zipIdx]
  by_cases hi : i < p.positional.length
  · have hparam : (p.positionalOnly ++ p.positional)[p.positionalOnly.length + i]? = p.positional[i]? := by
      rw [getElem?_append_right (Nat.le_add_right ..), Nat.add_sub_cancel_left]
    rw [getElem?_eq_getElem hi] at hparam ⊢
    rw [Option.map_some, Option.map_some, Nat.zero_add]
    exact getElem?_zip_eq_some.mpr ⟨hparam, getElem?_alignedDefaults h hi⟩
  · rw [getElem?_eq_none (Nat.le_of_not_lt hi), getElem?_eq_none]
    · rfl
    · rw [length_zip, length_append]
      omega

end Written

/-- Every parameter list is written in one way. The defaults it is written with are those that calls bind
and those that are found for the positional parameters. -/
theorem defaultAt?_bound
  (h : p.defaults.length ≤ p.positionalOnly.length + p.positional.length) :
  ∃ bare given, Spelled p bare given ∧ (∀ b g, Spelled p b g → b = bare ∧ g = given) ∧
    (Formal.ofParameters p).positionalDefaults = (bindings bare given).map (fun a => (a.1.name, a.2)) ∧
    (bindings bare given).drop p.positionalOnly.length =
      p.positional.zipIdx.map fun a => (a.1, p.defaultAt? a.2) := by
  rcases exists_spelled h with ⟨bare, given, hs⟩
  refine ⟨bare, given, hs, fun _ _ => hs.unique, ?_, hs.drop_bindings h⟩
  have hcalls : (Formal.ofParameters p).positionalDefaults =
      ((p.positionalOnly ++ p.positional).map Param.name).zip (alignedDefaults p) := by
    rw [alignedDefaults, ← length_map Param.name, map_append]
    rfl
  rw [hcalls, hs.bindings_eq, zip_map_left]
  rfl

/-- A function with defaults on both sides of the slash. -/
def slashed : Function where
  name := "f"
  decorators := [.name "keyword"]
  parameters := {
    positionalOnly := [⟨"a", none⟩]
    positional := [⟨"b", none⟩]
    defaults := [.constant (.int 1) false, .constant (.int 2) false] }

/-- The parameter behind the slash has the second default. -/
theorem defaultAt?_bound_slashed : ∃ bare given, Spelled slashed.parameters bare given ∧
  (bindings bare given).drop 1 = [(⟨"b", none⟩, some (.constant (.int 2) false))] := by
  rcases defaultAt?_bound (p := slashed.parameters) (by decide) with ⟨bare, given, hs, -, -, hdrop⟩
  exact ⟨bare, given, hs, hdrop⟩

/-- The text that a default is shown with. -/
def shownDefault (e : Expr) : String := (defaultText e).getD "None"

/-- The default that is shown with the parameter at a place has the text of the one that is written there.
It is that one if the defaults do not reach beyond the slash; otherwise it is one before it. -/
def ShowsOwn (p : Parameters) (i : Nat) : Prop :=
  p.defaults.length ≤ p.positional.length ∨ 2 * p.positional.length ≤ i + p.defaults.length ∧
    (p.defaults.map shownDefault)[i - (2 * p.positional.length - p.defaults.length)]? =
      (p.defaults.map shownDefault)[i + p.defaults.length - p.positional.length]?

lemma functionDefault?_eq (p : Parameters) (i : Nat) : functionDefault? p i =
  if defaultStart p.positional.length p.defaults.length ≤ i then
    p.defaults[i - defaultStart p.positional.length p.defaults.length]?
  else none := rfl

lemma functionDefault?_of_le (h : p.defaults.length ≤ p.positional.length) (i : Nat) :
  functionDefault? p i = p.defaultAt? i := by
  have hsub : i - (p.positional.length - p.defaults.length) =
      i + p.defaults.length - p.positional.length := by omega
  rw [functionDefault?_eq, defaultStart, if_pos h, hsub, Parameters.defaultAt?]
  by_cases hi : p.positional.length ≤ i + p.defaults.length
  · rw [if_pos hi, if_pos (by omega)]
  · rw [if_neg hi, if_neg (by omega)]

lemma showsOwn_iff {i : Nat} (hi : i < p.positional.length) :
  (functionDefault? p i).map shownDefault = (p.defaultAt? i).map shownDefault ↔ ShowsOwn p i := by
  by_cases h : p.defaults.length ≤ p.positional.length
  · exact iff_of_true (by rw [functionDefault?_of_le h]) (.inl h)
  have hlast : p.positional.length ≤ i + p.defaults.length := by omega
  rw [functionDefault?_eq, defaultStart, if_neg h, Parameters.defaultAt?, if_pos hlast, ShowsOwn,
    or_iff_right h, getElem?_map, getElem?_map]
  by_cases hstart : 2 * p.positional.length ≤ i + p.defaults.length
  · rw [if_pos (by omega), and_iff_right hstart]
  · have hget : i + p.defaults.length - p.positional.length < p.defaults.length := by omega
    rw [if_neg (by omega), getElem?_eq_getElem hget]
    exact iff_of_false (fun hnone => by cases hnone) fun hboth => hstart hboth.1

lemma shows_iff {a : Param} {d d' : Option Expr} {t : Parameter} (h : Shows (a, d) t) :
  Shows (a, d') t ↔ d.map shownDefault = d'.map shownDefault := by
  rcases h with ⟨type, htype, rfl⟩
  have htext : parameterText type (a, d) = parameterText type (a, d') ↔
      d.map shownDefault = d'.map shownDefault := by
    rw [parameterText, parameterText, Parameter.text.injEq, String.append_right_inj]
    cases d <;> cases d' <;> simp [shownDefault, String.append_right_inj]
  rw [← htext]
  refine ⟨?_, fun hsame => ⟨type, htype, hsame⟩⟩
  rintro ⟨type', htype', hsame⟩
  cases htype.symm.trans htype'
  exact hsame

lemma forall₂_iff_forall {α β : Type} {R S : α → β → Prop} {Q : α → Prop} {l : List α} {u : List β}
  (h : List.Forall₂ R l u) (hiff : ∀ a ∈ l, ∀ b, R a b → (S a b ↔ Q a)) :
  List.Forall₂ S l u ↔ ∀ a ∈ l, Q a := by
  induction h with
  | nil => simp
  | cons hab _ ih =>
    rw [forall_mem_cons] at hiff
    rw [forall₂_cons, forall_mem_cons, ih hiff.2, hiff.1 _ hab]

/-- A function whose annotations have texts; that of the instance is not shown. -/
def Typed (f : Function) : Prop :=
  (∀ a ∈ f.parameters.positional, a.name ≠ "self" →
    ∃ t, a.hint.elim (.ok "Any") functionType = .ok t) ∧ ∃ t, f.returns.elim (.ok "") functionType = .ok t

lemma parameterTexts_succeeds_iff : (∃ ps, parameterTexts p = .ok ps) ↔
  ∀ a ∈ p.positional, a.name ≠ "self" → ∃ t, a.hint.elim (.ok "Any") functionType = .ok t := by
  constructor
  · rintro ⟨ps, hps⟩ a ha hself
    rcases exists_shows hps ha hself with ⟨d, t, -, type, htype, -⟩
    exact ⟨type, htype⟩
  · intro h
    rw [parameterTexts, mapM_succeeds_iff]
    rintro ⟨a, i⟩ ha
    have hself : a.name ≠ "self" := of_decide_eq_true (mem_filter.mp ha).2
    rcases h a (fst_mem_of_mem_zipIdx (mem_of_mem_filter ha)) hself with ⟨t, ht⟩
    cases hhint : a.hint with
    | none => exact ⟨_, by simp only [hhint]; rfl⟩
    | some e =>
      rw [hhint] at ht
      exact ⟨_, by simp only [hhint]; exact bind_eq_ok.mpr ⟨t, ht, rfl⟩⟩

lemma functionKeyword?_succeeds_iff {f : Function} {body : List Stmt} :
  (∃ r, functionKeyword? f body = .ok r) ↔ ((firstMarkedName f).isSome → Typed f) := by
  unfold functionKeyword?
  cases firstMarkedName f with
  | none => exact iff_of_true ⟨_, rfl⟩ fun h => by cases h
  | some name =>
    rw [Typed, ← parameterTexts_succeeds_iff]
    cases f.returns <;> simp [bind_eq_ok, pure, Except.pure]

lemma functionLibrary_succeeds_iff {stem : String} {names : Entries} {program : List Stmt} :
  (∃ lib, functionLibrary stem names program = .ok lib) ↔ ∀ f ∈ markedFunctions program, Typed f := by
  have hall : (∃ lib, functionLibrary stem names program = .ok lib) ↔
      ∃ rs, (program.filterMap plainFunction?).mapM (fun f => functionKeyword? f.1 f.2) = .ok rs :=
    ⟨fun ⟨_, h⟩ => (bind_eq_ok.mp h).imp fun _ => And.left,
      fun ⟨_, h⟩ => ⟨_, bind_eq_ok.mpr ⟨_, h, rfl⟩⟩⟩
  rw [hall, mapM_succeeds_iff, markedFunctions, forall_mem_filter, forall_mem_map]
  exact forall₂_congr fun f _ => functionKeyword?_succeeds_iff

/-- A module has keywords exactly if all annotations that are shown have texts. Then its parameters are shown
with the defaults they are written with exactly if every one that is shown has its own. -/
theorem module_defaults_iff {stem : String} {names : Entries} {program : List Stmt}
  (hlegal : ∀ f ∈ markedFunctions program, f.parameters.defaults.length ≤
    f.parameters.positionalOnly.length + f.parameters.positional.length) :
  ((∃ lib, functionLibrary stem names program = .ok lib) ↔ ∀ f ∈ markedFunctions program, Typed f) ∧
  ∀ lib, functionLibrary stem names program = .ok lib →
    List.Forall₂ (fun f k => ∃ bare given, Spelled f.parameters bare given ∧
      (List.Forall₂ Shows (((bindings bare given).drop f.parameters.positionalOnly.length).filter
          fun a => a.1.name ≠ "self") k.parameters ↔
        ∀ a ∈ f.parameters.positional.zipIdx, a.1.name ≠ "self" → ShowsOwn f.parameters a.2))
      (markedFunctions program) lib.keywords := by
  refine ⟨functionLibrary_succeeds_iff, fun lib hlib => ?_⟩
  refine ((forall₂_and_left _ _).mpr ⟨hlegal, moduleLibrary_made hlib⟩).imp ?_
  rintro f k ⟨hle, hps⟩
  rcases exists_spelled hle with ⟨bare, given, hs⟩
  refine ⟨bare, given, hs, ?_⟩
  have hown : ∀ a ∈ f.parameters.positional.zipIdx.filter fun a => a.1.name ≠ "self", ∀ t,
      Shows (a.1, functionDefault? f.parameters a.2) t →
        (Shows (a.1, f.parameters.defaultAt? a.2) t ↔ ShowsOwn f.parameters a.2) := fun a ha t ht =>
    (shows_iff ht).trans (showsOwn_iff (snd_lt_of_mem_zipIdx (mem_of_mem_filter ha)))
  rw [hs.drop_bindings hle, filter_map, forall₂_map_left_iff]
  refine (forall₂_iff_forall (parameterTexts_eq_ok hps) hown).trans ?_
  rw [forall_mem_filter]
  simp

/-- The parameter behind the slash is shown with the default of the one in front of it. -/
theorem module_defaults_iff_slashed :
  ∃ lib k, functionLibrary "lib" [] [.function slashed []] = .ok lib ∧ lib.keywords = [k] ∧
    ∃ bare given, Spelled slashed.parameters bare given ∧ ¬ List.Forall₂ Shows
      (((bindings bare given).drop 1).filter fun a => a.1.name ≠ "self") k.parameters := by
  have hlib : functionLibrary "lib" [] [.function slashed []] = .ok _ := rfl
  have hall := (module_defaults_iff (forall_mem_singleton.mpr (by decide))).2 _ hlib
  rcases forall₂_cons_left_iff.mp hall with ⟨k, ks, ⟨bare, given, hs, hiff⟩, hks, hkeywords⟩
  cases hks
  refine ⟨_, k, hlib, hkeywords, bare, given, hs, fun hshows => ?_⟩
  rcases hiff.mp hshows _ mem_cons_self (by decide) with hle | ⟨-, hsame⟩
  · exact absurd hle (by decide)
  · exact absurd hsame (by decide)

end KeywordDocs.Discovery
