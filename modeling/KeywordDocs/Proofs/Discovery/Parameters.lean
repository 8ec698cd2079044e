import KeywordDocs.Proofs.Discovery.Discover
import Mathlib.Data.List.Nodup

/-!
# Complete Parameter Lists

A keyword should list every parameter of its method, and have an entry for every default. It lists the
positional parameters, the one for the remaining arguments and those given by name.
-/

namespace KeywordDocs.Discovery

open Source KeywordDocs.Signature Highlight List

variable (p : Parameters) (f : Function) (default? : Nat → Option Expr)

/-- A parameter with the name it is shown under and its default. -/
structure Slot where
  name : String
  param : Param
  default : Option Expr

def Slot.shown (s : Slot) : Parameter := .named s.name (typeText s.param)

/-- The defaults with that of a slot; a default without a text is not shown. -/
def Slot.addDefault (defaults : List (String × Value)) (s : Slot) : List (String × Value) :=
  match (s.default.bind defaultText).filter (!·.isEmpty) with
  | some t => putNamed s.name (.str t) defaults
  | none => defaults

def slotDefaults (slots : List Slot) : List (String × Value) := slots.foldl Slot.addDefault []

/-- The default of the positional parameter at a place, the positional-only ones counted. -/
def placedDefault? (i : Nat) : Option Expr :=
  let count := p.positionalOnly.length + p.positional.length
  if count ≤ i + p.defaults.length then p.defaults[i + p.defaults.length - count]? else none

/-- The slots of positional parameters that are found at given places, without the instance. -/
def placedSlots (params : List (Param × Nat)) : List Slot :=
  (params.filter fun a => a.1.name ≠ "self").map fun a => ⟨a.1.name, a.1, default? a.2⟩

/-- The slots after the positional ones that are shown. -/
def laterSlots : List Slot :=
  (p.rest.toList.map fun a => ⟨"*" ++ a.name, a, none⟩) ++
    (p.keywordOnly.zip p.keywordDefaults).map fun a => ⟨a.1.name, a.1, a.2⟩

/-- The parameters of a method, without the instance. -/
def ownSlots : List Slot :=
  placedSlots (placedDefault? p) (p.positionalOnly ++ p.positional).zipIdx ++ laterSlots p ++
    p.named.toList.map fun a => ⟨"**" ++ a.name, a, none⟩

/-- The parameters of a method that are shown. -/
def visibleSlots : List Slot := placedSlots p.defaultAt? p.positional.zipIdx ++ laterSlots p

def ownDefaults : List (String × Value) := slotDefaults (ownSlots f.parameters)

/-- The return type of a method. -/
def ownReturn : String := (f.returns.map methodType).getD "None"

/-- Parameters with their types, defaults and return type. -/
abbrev SignatureParts := List Parameter × List (String × Value) × String

def ownSignature : SignatureParts := ((ownSlots f.parameters).map Slot.shown, ownDefaults f, ownReturn f)

/-- What of a method's signature can be shown. -/
def visibleSignature : SignatureParts :=
  ((visibleSlots f.parameters).map Slot.shown, slotDefaults (visibleSlots f.parameters), ownReturn f)

def keywordSignature (k : Keyword) : SignatureParts := (k.parameters, k.defaults, k.returnType)

lemma foldl_add {α : Type} (resolve : Resolver) (slot : α → Slot) (l : List α) (s : Signature) :
  (l.foldl (fun s a => s.add resolve (slot a).name (slot a).param (slot a).default) s).parameters =
      s.parameters ++ (l.map slot).map Slot.shown ∧
    (l.foldl (fun s a => s.add resolve (slot a).name (slot a).param (slot a).default) s).defaults =
      (l.map slot).foldl Slot.addDefault s.defaults := by
  induction l generalizing s with
  | nil => exact ⟨(append_nil _).symm, rfl⟩
  | cons a l ih =>
    rcases ih (s.add resolve (slot a).name (slot a).param (slot a).default) with ⟨hps, hds⟩
    rw [foldl_cons]
    exact ⟨hps.trans (append_assoc _ _ _), hds⟩

lemma keywordOf_signature (resolve : Resolver) (name : Value) (f : Function) :
  keywordSignature (keywordOf resolve name f) = visibleSignature f := by
  -- The signature is built by three walks, over positional, remaining and named parameters.
  have hplaced := foldl_add resolve
    (fun a : Param × Nat => ⟨a.1.name, a.1, f.parameters.defaultAt? a.2⟩)
    (f.parameters.positional.zipIdx.filter fun a => a.1.name ≠ "self") {}
  have hrest := fun s => foldl_add resolve
    (fun a : Param => ⟨"*" ++ a.name, a, none⟩) f.parameters.rest.toList s
  have hnamed := fun s => foldl_add resolve
    (fun a : Param × Option Expr => ⟨a.1.name, a.1, a.2⟩)
    (f.parameters.keywordOnly.zip f.parameters.keywordDefaults) s
  refine Prod.ext ((hnamed _).1.trans ?_) (Prod.ext ((hnamed _).2.trans ?_) rfl)
  · show _ = (visibleSlots f.parameters).map Slot.shown
    rw [(hrest _).1, hplaced.1, visibleSlots, laterSlots, map_append, map_append, append_assoc]
    rfl
  · show _ = slotDefaults (visibleSlots f.parameters)
    rw [(hrest _).2, hplaced.2, slotDefaults, visibleSlots, laterSlots, foldl_append, foldl_append]
    rfl

lemma named_of_mem_keywordOf {resolve : Resolver} {f : Function} {p : Parameter} (name : Value)
  (h : p ∈ (keywordOf resolve name f).parameters) : ∃ name type, p = .named name type := by
  have hps : (keywordOf resolve name f).parameters = (visibleSlots f.parameters).map Slot.shown :=
    congrArg Prod.fst (keywordOf_signature resolve name f)
  rw [hps] at h
  rcases mem_map.mp h with ⟨s, -, rfl⟩
  exact ⟨s.name, typeText s.param, rfl⟩

/-- A method all of whose parameters are shown: none is positional-only, the instance apart, and none
takes the remaining named arguments. -/
def HidesNothing : Prop := (∀ a ∈ p.positionalOnly, a.name = "self") ∧ p.named = none

lemma ownSlots_eq :
  ownSlots p = placedSlots (placedDefault? p) p.positionalOnly.zipIdx ++ visibleSlots p ++
    p.named.toList.map fun a => ⟨"**" ++ a.name, a, none⟩ := by
  have hshift : placedSlots (placedDefault? p) (p.positional.zipIdx p.positionalOnly.length) =
      placedSlots p.defaultAt? p.positional.zipIdx := by
    -- Both counts leave the same number of positional parameters after a place.
    have hdefault : ∀ i, placedDefault? p (p.positionalOnly.length + i) = p.defaultAt? i := by
      intro i
      unfold placedDefault? Parameters.defaultAt?
      have hsub : p.positionalOnly.length + i + p.defaults.length -
          (p.positionalOnly.length + p.positional.length) =
          i + p.defaults.length - p.positional.length := by omega
      by_cases hle : p.positional.length ≤ i + p.defaults.length
      · rw [if_pos hle, if_pos (by omega), hsub]
      · rw [if_neg hle, if_neg (by omega)]
    unfold placedSlots
    rw [zipIdx_eq_map_add, filter_map, map_map]
    exact map_congr_left fun a _ => congrArg (Slot.mk a.1.name a.1) (hdefault a.2)
  have hsplit : placedSlots (placedDefault? p) (p.positionalOnly ++ p.positional).zipIdx =
      placedSlots (placedDefault? p) p.positionalOnly.zipIdx ++
        placedSlots p.defaultAt? p.positional.zipIdx := by
    rw [← hshift, zipIdx_append, Nat.zero_add]
    unfold placedSlots
    rw [filter_append, map_append]
  rw [ownSlots, visibleSlots, hsplit, append_assoc, append_assoc, append_assoc, append_assoc]

lemma placedSlots_eq_nil_iff (params : List Param) (n : Nat) :
  placedSlots default? (params.zipIdx n) = [] ↔ ∀ a ∈ params, a.name = "self" := by
  unfold placedSlots
  rw [map_eq_nil_iff, filter_eq_nil_iff]
  constructor
  · intro h a ha
    rcases getElem_of_mem ha with ⟨i, hi, rfl⟩
    have hmem := h (params[i], n + i) (mk_add_mem_zipIdx_iff_getElem?.mpr (getElem?_eq_getElem hi))
    simpa using hmem
  · intro h a ha
    simpa using h a.1 (fst_mem_of_mem_zipIdx ha)

lemma ownSlots_of_hidesNothing {p : Parameters} (h : HidesNothing p) : ownSlots p = visibleSlots p := by
  rw [ownSlots_eq, (placedSlots_eq_nil_iff _ _ 0).mpr h.1, h.2, nil_append]
  exact append_nil _

lemma shown_eq_iff :
  (visibleSlots p).map Slot.shown = (ownSlots p).map Slot.shown ↔ HidesNothing p := by
  constructor
  · intro h
    -- The visible slots are among the own ones, so there are as many only if none is hidden.
    have hlength := congrArg List.length h
    rw [ownSlots_eq, length_map, length_map, length_append, length_append, length_map] at hlength
    refine ⟨(placedSlots_eq_nil_iff (placedDefault? p) _ 0).mp ?_, ?_⟩
    · exact eq_nil_of_length_eq_zero (by omega)
    · have hnil : p.named.toList = [] := eq_nil_of_length_eq_zero (by omega)
      exact Option.toList_eq_nil_iff.mp hnil
  · intro h
    rw [ownSlots_of_hidesNothing h]

lemma visibleSignature_eq_iff :
  visibleSignature f = ownSignature f ↔ HidesNothing f.parameters := by
  refine ⟨fun h => (shown_eq_iff _).mp (congrArg Prod.fst h), fun h => ?_⟩
  rw [visibleSignature, ownSignature, ownDefaults, ownSlots_of_hidesNothing h]

variable {p : Parameters} {s : Slot} {slots : List Slot} {n : String}

/-- A parameter list that can be written: names are distinct, there are at most as many defaults as
positional parameters, and every parameter given by name has a place for its default. -/
structure Legal (p : Parameters) : Prop where
  distinct : ((p.positionalOnly ++ p.positional ++ p.rest.toList ++ p.keywordOnly ++
    p.named.toList).map Param.name).Nodup
  defaults : p.defaults.length ≤ p.positionalOnly.length + p.positional.length
  keywordDefaults : p.keywordDefaults.length = p.keywordOnly.length

def markedParameter (mark : String) (a : Param) : Parameter := .named (mark ++ a.name) (typeText a)

/-- All parameters in the order they are written in, without the instance. -/
def allParameters (p : Parameters) : List Parameter :=
  ((p.positionalOnly ++ p.positional).filter fun a => a.name ≠ "self").map (markedParameter "") ++
    p.rest.toList.map (markedParameter "*") ++ p.keywordOnly.map (markedParameter "") ++
    p.named.toList.map (markedParameter "**")

variable {α : Type} {g : Slot → α} {f : Param → α}

lemma map_placedSlots (default? : Nat → Option Expr) (params : List Param)
  (hg : ∀ a e, g ⟨a.name, a, e⟩ = f a) :
  (placedSlots default? params.zipIdx).map g = (params.filter fun a => a.name ≠ "self").map f := by
  conv_rhs => rw [← zipIdx_map_fst 0 params, filter_map, map_map]
  rw [placedSlots, map_map]
  exact map_congr_left fun a _ => hg a.1 _

lemma map_keywordSlots (h : Legal p) (hg : ∀ a e, g ⟨a.name, a, e⟩ = f a) :
  ((p.keywordOnly.zip p.keywordDefaults).map fun a => ⟨a.1.name, a.1, a.2⟩).map g =
    p.keywordOnly.map f := by
  conv_rhs => rw [← map_fst_zip (Nat.le_of_eq h.keywordDefaults.symm), map_map]
  rw [map_map]
  exact map_congr_left fun a _ => hg a.1 _

lemma ownSlots_shown (h : Legal p) : (ownSlots p).map Slot.shown = allParameters p := by
  have hplain : ∀ a e, Slot.shown ⟨a.name, a, e⟩ = markedParameter "" a := fun a e => by
    rw [markedParameter, String.empty_append, Slot.shown]
  rw [ownSlots, laterSlots, map_append, map_append, map_append, map_placedSlots _ _ hplain,
    map_keywordSlots h hplain, map_map, map_map, allParameters]
  simp only [append_assoc]
  rfl

/-- The text of a slot's default, if it has one. -/
def Slot.text? (s : Slot) : Option String := (s.default.bind defaultText).filter (!·.isEmpty)

lemma mem_putNamed_iff {α : Type} {name : String} {v : α} {l : List (String × α)} :
  n ∈ (putNamed name v l).map Prod.fst ↔ name = n ∨ n ∈ l.map Prod.fst := by
  induction l with
  | nil => simp [putNamed, eq_comm]
  | cons e l ih =>
    rw [putNamed]
    split
    case isTrue he => simp [he, eq_comm]
    case isFalse => rw [map_cons, mem_cons, ih, map_cons, mem_cons, or_left_comm]

lemma mem_addDefault_iff {ds : List (String × Value)} :
  n ∈ (s.addDefault ds).map Prod.fst ↔ (s.name = n ∧ s.text?.isSome) ∨ n ∈ ds.map Prod.fst := by
  rw [Slot.addDefault, Slot.text?]
  cases (s.default.bind defaultText).filter (!·.isEmpty) with
  | none => simp
  | some t => simpa using mem_putNamed_iff (v := Value.str t)

lemma mem_slotDefaults_iff :
  n ∈ (slotDefaults slots).map Prod.fst ↔ ∃ s ∈ slots, s.name = n ∧ s.text?.isSome := by
  have hfold : ∀ ds, n ∈ (slots.foldl Slot.addDefault ds).map Prod.fst ↔
      (∃ s ∈ slots, s.name = n ∧ s.text?.isSome) ∨ n ∈ ds.map Prod.fst := by
    induction slots with
    | nil => simp
    | cons s slots ih =>
      intro ds
      rw [foldl_cons, ih, mem_addDefault_iff, ← or_assoc, or_comm (a := ∃ s ∈ slots, _), exists_mem_cons_iff]
  exact (hfold []).trans (or_iff_left not_mem_nil)

lemma default_of_text? (h : s.text?.isSome) : s.default.isSome := by
  cases hdefault : s.default with
  | none =>
    rw [Slot.text?, hdefault] at h
    cases h
  | some e => rfl

/-- The slots of positional-only parameters, which are hidden. -/
def hiddenSlots (p : Parameters) : List Slot := placedSlots (placedDefault? p) p.positionalOnly.zipIdx

def filedSlots (p : Parameters) : List Slot :=
  placedSlots p.defaultAt? p.positional.zipIdx ++
    (p.keywordOnly.zip p.keywordDefaults).map fun a => ⟨a.1.name, a.1, a.2⟩

lemma mem_visibleSlots_iff (hs : s.default.isSome) : s ∈ visibleSlots p ↔ s ∈ filedSlots p := by
  have hrest : s ∉ p.rest.toList.map fun a => ⟨"*" ++ a.name, a, none⟩ := by
    intro hmem
    rcases mem_map.mp hmem with ⟨a, -, rfl⟩
    cases hs
  rw [visibleSlots, laterSlots, filedSlots, mem_append, mem_append, mem_append, or_iff_right hrest]

lemma mem_ownSlots_iff (hs : s.default.isSome) :
  s ∈ ownSlots p ↔ s ∈ hiddenSlots p ++ filedSlots p := by
  have hnamed : s ∉ p.named.toList.map fun a => ⟨"**" ++ a.name, a, none⟩ := by
    intro hmem
    rcases mem_map.mp hmem with ⟨a, -, rfl⟩
    cases hs
  rw [ownSlots_eq, mem_append, mem_append, or_iff_left hnamed, mem_visibleSlots_iff hs, mem_append,
    hiddenSlots]

lemma names_nodup (h : Legal p) : ((hiddenSlots p ++ filedSlots p).map Slot.name).Nodup := by
  refine h.distinct.sublist ?_
  rw [hiddenSlots, filedSlots, map_append, map_append, map_placedSlots _ _ fun _ _ => rfl,
    map_placedSlots _ _ fun _ _ => rfl, map_keywordSlots h fun _ _ => rfl]
  simp only [map_append, append_assoc]
  refine (filter_sublist.map _).append ((filter_sublist.map _).append ?_)
  exact (sublist_append_left _ _).trans (sublist_append_right _ _)

lemma defaults_complete_iff (h : Legal p) :
  (∀ s ∈ ownSlots p, s.default.isSome → s.name ∈ (slotDefaults (visibleSlots p)).map Prod.fst) ↔
    (∀ s ∈ hiddenSlots p, s.default = none) ∧ ∀ s ∈ visibleSlots p, s.default.isSome → s.text?.isSome := by
  constructor
  · intro hentries
    have hfiled : ∀ s ∈ hiddenSlots p ++ filedSlots p, s.default.isSome →
        s ∈ filedSlots p ∧ s.text?.isSome := by
      intro s hs hdefault
      rcases mem_slotDefaults_iff.mp (hentries s ((mem_ownSlots_iff hdefault).mpr hs) hdefault)
        with ⟨s', hs', hname, htext⟩
      have hs' := (mem_visibleSlots_iff (default_of_text? htext)).mp hs'
      obtain rfl := inj_on_of_nodup_map (names_nodup h) (mem_append_right _ hs') hs hname
      exact ⟨hs', htext⟩
    refine ⟨fun s hs => ?_, fun s hs hdefault => ?_⟩
    · by_contra hdefault
      have hmem := (hfiled s (mem_append_left _ hs) (Option.isSome_iff_ne_none.mpr hdefault)).1
      have hnames := names_nodup h
      rw [map_append] at hnames
      exact (nodup_append.mp hnames).2.2 _ (mem_map_of_mem hs) _ (mem_map_of_mem hmem) rfl
    · exact (hfiled s (mem_append_right _ ((mem_visibleSlots_iff hdefault).mp hs)) hdefault).2
  · rintro ⟨hhidden, hvisible⟩ s hs hdefault
    rcases mem_append.mp ((mem_ownSlots_iff hdefault).mp hs) with hs | hs
    · rw [hhidden s hs] at hdefault
      cases hdefault
    · have hs := (mem_visibleSlots_iff hdefault).mpr hs
      exact mem_slotDefaults_iff.mpr ⟨s, hs, rfl, hvisible s hs hdefault⟩

/-- A keyword lists all parameters of its method exactly if the method hides none, and it has an entry
for every default exactly if the default is of a visible parameter and has a text. -/
theorem class_parameters_iff {config : Option Json} {names : Module.Entries} {head : ClassHead}
  {body : List Stmt} {v v' : Vocabulary} {lib : Library}
  (hlegal : ∀ m ∈ markedMethods body, Legal m.2.1.parameters)
  (hlib : outcome (classLibrary config names head body) v = (.ok lib, v')) :
  Forall₂ (fun m k =>
    (k.parameters = allParameters m.2.1.parameters ↔ HidesNothing m.2.1.parameters) ∧
    ((∀ s ∈ ownSlots m.2.1.parameters, s.default.isSome → s.name ∈ k.defaults.map Prod.fst) ↔
      (∀ s ∈ hiddenSlots m.2.1.parameters, s.default = none) ∧
        ∀ s ∈ visibleSlots m.2.1.parameters, s.default.isSome → s.text?.isSome))
    (markedMethods body) lib.keywords := by
  have hmade : ClassMade (resolveAmong names) body lib.keywords := (classLibrary_made hlib).2
  refine ((forall₂_and_left _ _).mpr ⟨hlegal, hmade⟩).imp ?_
  rintro m k ⟨hlegal, description, rfl⟩
  have hparts := Prod.mk.inj (keywordOf_signature (resolveAmong names) m.1 m.2.1)
  constructor
  · rw [hparts.1, ← ownSlots_shown hlegal, shown_eq_iff]
  · rw [(Prod.mk.inj hparts.2).1, defaults_complete_iff hlegal]

/-- A method with parameters of every kind, and with a default that has no text. -/
def everyKind : Function where
  name := "f"
  decorators := [.name "keyword"]
  parameters := {
    positionalOnly := [⟨"self", none⟩, ⟨"a", none⟩]
    positional := [⟨"b", none⟩]
    defaults := [.constant (.int 1) false]
    rest := some ⟨"others", none⟩
    keywordOnly := [⟨"c", none⟩]
    keywordDefaults := [some (.attribute (.attribute (.name "os") "path") "sep")]
    named := some ⟨"options", none⟩ }

/-- The keyword has neither all parameters nor all defaults. -/
theorem class_parameters_iff_everyKind :
  ∃ lib v', outcome (classLibrary none [] { name := "Lib" } [.function everyKind []]) {} =
      (.ok lib, v') ∧
    ∃ k, lib.keywords = [k] ∧ k.parameters ≠ allParameters everyKind.parameters ∧
      ¬ ∀ s ∈ ownSlots everyKind.parameters, s.default.isSome → s.name ∈ k.defaults.map Prod.fst := by
  have hlegal : Legal everyKind.parameters := ⟨by decide, by decide, rfl⟩
  obtain ⟨n, hmarked⟩ : ∃ n, markedMethods [.function everyKind []] = [(n, everyKind, [])] := ⟨_, rfl⟩
  have hok : (outcome (classLibrary none [] { name := "Lib" } [.function everyKind []]) {}).1.isOk :=
    by decide +kernel
  rcases hrun : outcome (classLibrary none [] { name := "Lib" } [.function everyKind []]) {}
    with ⟨_ | lib, v'⟩
  · rw [hrun] at hok
    cases hok
  have hlists := class_parameters_iff (by rw [hmarked]; exact forall_mem_singleton.mpr hlegal) hrun
  rw [hmarked] at hlists
  rcases forall₂_cons_left_iff.mp hlists with ⟨k, ks, hk, hks, hkeywords⟩
  cases hks
  refine ⟨lib, v', rfl, k, hkeywords, fun hall => ?_, fun hall => ?_⟩
  · exact absurd (hk.1.mp hall).2 (by simp [everyKind])
  · have htext := (hk.2.mp hall).2 _ (.tail _ (.tail _ (.head _))) rfl
    cases htext

end KeywordDocs.Discovery
