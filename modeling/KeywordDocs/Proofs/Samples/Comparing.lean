import KeywordDocs.Proofs.Samples.Entries
import KeywordDocs.Samples.Data
import Mathlib.Logic.Basic
import Mathlib.Tactic.ByContra

/-!
# Comparing Structures

What a comparison records turns the first structure into the second: removed keys are taken out, modified
values replaced, added entries put at the end. Lists are dictionaries from indices to items.

Two dictionaries are the same if each value is alike to the other's under its key, that is, the same object or
the same value. The comparison asks for the same value, so one with what is not a number differs from itself;
this is the only difference.
-/

namespace KeywordDocs.Samples

open List
open Value (same sameItems alike_self alike)

variable {as bs es : List (Value × Value)} {cs ds : List Value} {a e f : Value × Value} {v w : Value}

/-- The entries that a comparison makes of the first structure's. -/
def Comparison.patch (c : Comparison) (entries : List (Value × Value)) : List (Value × Value) :=
  ((entries.filter fun e => (entryOf e.1 c.removed).isNone).map fun e =>
    (e.1, (entryOf e.1 (c.modified.map fun m => (m.1, m.2.2))).getD e.2)) ++ c.added

/-- What is recorded as added, removed or modified is so, with the values that the two structures have. -/
structure Comparison.IsExact (c : Comparison) (as bs : List (Value × Value)) : Prop where
  equal : c.equal = true ↔ c.added = [] ∧ c.removed = [] ∧ c.modified = []
  added : ∀ e ∈ c.added, e ∈ bs ∧ entryOf e.1 as = none
  removed : ∀ e ∈ c.removed, e ∈ as ∧ entryOf e.1 bs = none
  modified : ∀ m ∈ c.modified, (m.1, m.2.1) ∈ as ∧ entryOf m.1 bs = some m.2.2

lemma sameEntries_iff : Value.sameEntries as bs = true ↔
  ∀ e ∈ as, ∃ w, entryOf e.1 bs = some w ∧ e.2.alike w = true := by
  induction as with
  | nil => simp [Value.sameEntries]
  | cons e as ih =>
    rw [Value.sameEntries, Bool.and_eq_true, ih, forall_mem_cons]
    refine and_congr ?_ Iff.rfl
    unfold entryOf alike
    cases bs.find? fun b => e.1.identical b.1 || e.1.same b.1 <;> simp

lemma WellFormed.alike_self (h : WellFormed v) : v.alike v = true := by
  have hof : ∀ {u : Value}, u.same u = true → u.alike u = true := fun hu => Bool.or_eq_true_iff.mpr (.inr hu)
  induction h with
  | scalar hx => exact (Value.alike_of_essence hx).mpr hx
  | @list vs _ ih => exact hof (by rw [same]; exact Value.sameItems_refl ih)
  | @tuple vs _ ih => exact hof (by rw [same]; exact Value.sameItems_refl ih)
  | @set vs _ ih =>
    have hamong : ∀ us, us ⊆ vs → Value.allAmong us vs = true := by
      intro us hus
      induction us with
      | nil => rw [Value.allAmong]
      | cons u us ihu =>
        rcases cons_subset.mp hus with ⟨hu, hus⟩
        rw [Value.allAmong, ihu hus, Bool.and_true]
        exact any_eq_true.mpr ⟨u, hu, ih u hu⟩
    exact hof (by rw [same, hamong vs (Subset.refl vs), BEq.rfl, Bool.true_and])
  | @dict entries keys _ ih =>
    have hentries := sameEntries_iff.mpr fun e he => ⟨e.2, keys.entry_self he, ih e he⟩
    exact hof (by rw [same, hentries, BEq.rfl, Bool.true_and])

lemma IsDictionary.unique (h : IsDictionary es) (he : e ∈ es) (hf : f ∈ es)
  (hef : e.1.alike f.1 = true) : e = f := by
  induction es with
  | nil => cases he
  | cons g es ih =>
    rcases isDictionary_cons.mp h with ⟨-, hne, hrest⟩
    rcases mem_cons.mp he with rfl | he'
    · rcases mem_cons.mp hf with rfl | hf'
      · rfl
      · exact absurd hef (by rw [hne f hf']; exact Bool.false_ne_true)
    · rcases mem_cons.mp hf with rfl | hf'
      · have hfe := Value.alike_symm e.1 f.1 (h.hashable e he) hef
        exact absurd hfe (by rw [hne e he']; exact Bool.false_ne_true)
      · exact ih hrest he' hf'

lemma IsDictionary.of_keys (h : IsDictionary as) (hkeys : (es.map Prod.fst).Sublist (as.map Prod.fst)) :
  IsDictionary es := by
  constructor
  · intro e he
    rcases mem_map.mp (hkeys.subset (mem_map_of_mem he)) with ⟨a, ha, hkey⟩
    exact hkey ▸ h.hashable a ha
  · have hapart : (as.map Prod.fst).Pairwise fun j k => j.alike k = false := pairwise_map.mpr h.apart
    exact pairwise_map.mp (hapart.sublist hkeys)

/-- Dictionaries of one length share all keys as soon as one has all those of the other. -/
lemma same_dict_iff (ha : IsDictionary as) (hb : IsDictionary bs) :
  (Value.dict as).same (.dict bs) = true ↔ (∀ e ∈ as, ∃ w, entryOf e.1 bs = some w ∧ e.2.alike w = true) ∧
      ∀ f ∈ bs, (entryOf f.1 as).isSome = true := by
  rw [same, Bool.and_eq_true, sameEntries_iff, beq_iff_eq]
  have hkeys : (∀ e ∈ as, ∃ w, entryOf e.1 bs = some w ∧ e.2.alike w = true) →
      ∀ e ∈ as, ∃ f ∈ bs, e.1.alike f.1 = true := fun hvalues e he => by
    rcases hvalues e he with ⟨w, hw, -⟩
    rcases exists_of_entryOf hw with ⟨f, hf, hef, -⟩
    exact ⟨f, hf, hef⟩
  constructor
  · rintro ⟨hlength, hvalues⟩
    refine ⟨hvalues, fun f hf => ?_⟩
    by_contra hnone
    have hapart : ∀ e ∈ as, f.1.alike e.1 = false := fun e he =>
      Bool.eq_false_iff.mpr fun hfe => hnone (isSome_entryOf_iff.mpr ⟨e, he, hfe⟩)
    -- With a key of its own, `f` would make one more key than there are.
    have hle := IsDictionary.length_le (isDictionary_cons.mpr ⟨hb.hashable f hf, hapart, ha⟩) hb
      (forall_mem_cons.mpr ⟨⟨f, hf, alike_self f.1 (hb.hashable f hf)⟩, hkeys hvalues⟩)
    rw [length_cons] at hle
    omega
  · rintro ⟨hvalues, hback⟩
    have hle := ha.length_le hb (hkeys hvalues)
    have hge := hb.length_le ha fun f hf => isSome_entryOf_iff.mp (hback f hf)
    exact ⟨by omega, hvalues⟩

lemma mem_modified_iff {m : Value × Value × Value} : m ∈ (compareEntries as bs).modified ↔
  (m.1, m.2.1) ∈ as ∧ entryOf m.1 bs = some m.2.2 ∧ m.2.1.same m.2.2 = false := by
  rcases m with ⟨k, v, w⟩
  unfold compareEntries
  simp only [mem_filterMap]
  constructor
  · rintro ⟨e, he, hm⟩
    cases hw : entryOf e.1 bs with
    | none => simp [hw] at hm
    | some w' =>
      cases hsame : e.2.same w' with
      | true => simp [hw, hsame] at hm
      | false =>
        simp only [hw, hsame, Bool.false_eq_true, if_false, Option.some.injEq, Prod.mk.injEq] at hm
        rcases hm with ⟨rfl, rfl, rfl⟩
        exact ⟨he, hw, hsame⟩
  · rintro ⟨he, hw, hsame⟩
    exact ⟨(k, v), he, by simp [hw, hsame]⟩

lemma mem_added_iff : e ∈ (compareEntries as bs).added ↔ e ∈ bs ∧ entryOf e.1 as = none := by
  simp [compareEntries, mem_filter]

lemma mem_removed_iff : e ∈ (compareEntries as bs).removed ↔ e ∈ as ∧ entryOf e.1 bs = none := by
  simp [compareEntries, mem_filter]

lemma isExact_compareEntries (as bs : List (Value × Value)) :
  (compareEntries as bs).IsExact as bs where
  equal := by simp [compareEntries, Comparison.isEmpty, and_assoc]
  added _ he := mem_added_iff.mp he
  removed _ he := mem_removed_iff.mp he
  modified _ hm := ⟨(mem_modified_iff.mp hm).1, (mem_modified_iff.mp hm).2.1⟩

lemma entryOf_removed (ha : IsDictionary as) (he : a ∈ as) :
  entryOf a.1 (compareEntries as bs).removed = none ↔ ∃ w, entryOf a.1 bs = some w := by
  rw [← Option.isSome_iff_exists, ← Option.not_isSome_iff_eq_none, not_iff_comm,
    Option.not_isSome_iff_eq_none, isSome_entryOf_iff]
  constructor
  · intro hnone
    exact ⟨a, mem_removed_iff.mpr ⟨he, hnone⟩, alike_self a.1 (ha.hashable a he)⟩
  · rintro ⟨e, hmem, hae⟩
    rcases mem_removed_iff.mp hmem with ⟨hmem, hnone⟩
    rw [ha.unique he hmem hae]
    exact hnone

lemma entryOf_modified (ha : IsDictionary as) (he : a ∈ as) (hw : entryOf a.1 bs = some w) :
  entryOf a.1 ((compareEntries as bs).modified.map fun m => (m.1, m.2.2)) =
    if a.2.same w = true then none else some w := by
  -- The only entry with a key alike to that of `a` is `a` itself.
  have hfound : ∀ e ∈ (compareEntries as bs).modified.map fun m => (m.1, m.2.2),
      a.1.alike e.1 = true → e.2 = w ∧ a.2.same w = false := by
    intro e hmem hae
    rcases mem_map.mp hmem with ⟨m, hm, rfl⟩
    rcases mem_modified_iff.mp hm with ⟨hmem, hm, hsame⟩
    have heq := ha.unique he hmem hae
    rw [heq] at hw ⊢
    rw [hm, Option.some.injEq] at hw
    exact ⟨hw, hw ▸ hsame⟩
  cases hentry : entryOf a.1 ((compareEntries as bs).modified.map fun m => (m.1, m.2.2)) with
  | some u =>
    rcases exists_of_entryOf hentry with ⟨e, hmem, hae, rfl⟩
    rcases hfound e hmem hae with ⟨heq, hsame⟩
    rw [if_neg (by rw [hsame]; exact Bool.false_ne_true), heq]
  | none =>
    split
    case isTrue => rfl
    case isFalse hsame =>
      have hm : (a.1, a.2, w) ∈ (compareEntries as bs).modified :=
        mem_modified_iff.mpr ⟨he, hw, Bool.eq_false_iff.mpr hsame⟩
      have hnone := find?_eq_none.mp (Option.map_eq_none_iff.mp hentry) _ (mem_map_of_mem hm)
      cases hnone (alike_self a.1 (ha.hashable a he))

lemma mem_patch (ha : IsDictionary as) (h : e ∈ (compareEntries as bs).patch as) :
  e ∈ bs ∧ entryOf e.1 as = none ∨
    ∃ a ∈ as, ∃ w, entryOf a.1 bs = some w ∧ e = (a.1, if a.2.same w = true then a.2 else w) := by
  rcases mem_append.mp h with h | h
  · rcases mem_map.mp h with ⟨a, hmem, rfl⟩
    rcases mem_filter.mp hmem with ⟨hmem, hkept⟩
    rcases (entryOf_removed ha hmem).mp (Option.isNone_iff_eq_none.mp hkept) with ⟨w, hw⟩
    refine .inr ⟨a, hmem, w, hw, ?_⟩
    rw [entryOf_modified ha hmem hw]
    split <;> rfl
  · exact .inl (mem_added_iff.mp h)

lemma IsDictionary.patch (ha : IsDictionary as) (hb : IsDictionary bs) :
  IsDictionary ((compareEntries as bs).patch as) := by
  have hold : IsDictionary (((as.filter fun e => (entryOf e.1 (compareEntries as bs).removed).isNone).map
      fun e => (e.1, (entryOf e.1 ((compareEntries as bs).modified.map fun m => (m.1, m.2.2))).getD e.2))) :=
    ha.of_keys (by rw [map_map]; exact filter_sublist.map Prod.fst)
  have hnew : IsDictionary (compareEntries as bs).added := hb.of_keys (filter_sublist.map Prod.fst)
  constructor
  · intro e he
    rcases mem_append.mp he with he | he
    · exact hold.hashable e he
    · exact hnew.hashable e he
  · refine pairwise_append.mpr ⟨hold.apart, hnew.apart, fun e he f hf => ?_⟩
    rcases mem_map.mp he with ⟨a, hmem, rfl⟩
    have hmem := (mem_filter.mp hmem).1
    rcases mem_added_iff.mp hf with ⟨-, hnone⟩
    refine Bool.eq_false_iff.mpr fun haf => ?_
    have hsome := isSome_entryOf_iff.mpr
      ⟨a, hmem, Value.alike_symm a.1 f.1 (ha.hashable a hmem) haf⟩
    rw [hnone] at hsome
    cases hsome

lemma same_patch (ha : WellFormed (.dict as)) (hb : WellFormed (.dict bs)) :
  (Value.dict ((compareEntries as bs).patch as)).same (.dict bs) = true := by
  refine (same_dict_iff (ha.keys.patch hb.keys) hb.keys).mpr ⟨fun e he => ?_, fun f hf => ?_⟩
  · rcases mem_patch ha.keys he with ⟨hmem, -⟩ | ⟨a, hmem, w, hw, rfl⟩
    · exact ⟨e.2, hb.keys.entry_self hmem, (hb.values e hmem).alike_self⟩
    · refine ⟨w, hw, ?_⟩
      split
      case isTrue hsame => exact Bool.or_eq_true_iff.mpr (.inr hsame)
      case isFalse => exact (hb.entry hw).alike_self
  · -- A key of the second dictionary is kept from the first one, or it is added.
    have hash := hb.keys.hashable f hf
    cases hfirst : entryOf f.1 as with
    | none =>
      exact isSome_entryOf_iff.mpr ⟨f, mem_append_right _ (mem_added_iff.mpr ⟨hf, hfirst⟩),
        alike_self f.1 hash⟩
    | some v =>
      rcases exists_of_entryOf hfirst with ⟨a, hmem, hfa, -⟩
      have haf := Value.alike_symm f.1 a.1 hash hfa
      have hsecond := hb.keys.entry hf (ha.keys.hashable a hmem) haf
      have hkept := (entryOf_removed ha.keys hmem).mpr ⟨f.2, hsecond⟩
      refine isSome_entryOf_iff.mpr ⟨_, mem_append_left _ (mem_map_of_mem (mem_filter.mpr ⟨hmem, ?_⟩)), hfa⟩
      exact Option.isNone_iff_eq_none.mpr hkept

lemma same_iff_alike (v w : Value) : v.same w = true ↔
  v.alike w = true ∧ v.essence?.all Essence.isProper = true := by
  have hcontainer : v.essence? = none → (v.same w = true ↔ v.alike w = true) := fun h => by
    rw [alike, Value.identical, h]
    rfl
  cases hv : v.essence? with
  | none => rw [hcontainer hv]; exact ⟨fun h => ⟨h, rfl⟩, And.left⟩
  | some x =>
    have hsame : v.same w = v.sameScalar w := by
      cases v <;> first | simp only [same] | cases hv
    rw [alike, hsame, Value.sameScalar, hv]
    cases v.identical w <;> simp

lemma equal_iff_same (ha : WellFormed (.dict as)) (hb : WellFormed (.dict bs)) :
  (compareEntries as bs).equal = true ↔ (Value.dict as).same (.dict bs) = true ∧
    ∀ e ∈ as, e.2.essence?.all Essence.isProper = true := by
  rw [(isExact_compareEntries as bs).equal, same_dict_iff ha.keys hb.keys]
  constructor
  · rintro ⟨hadded, hremoved, hmodified⟩
    have hsame : ∀ e ∈ as, ∃ w, entryOf e.1 bs = some w ∧ e.2.same w = true := by
      intro e he
      cases hw : entryOf e.1 bs with
      | none =>
        have hmem : e ∈ (compareEntries as bs).removed := mem_removed_iff.mpr ⟨he, hw⟩
        rw [hremoved] at hmem
        cases hmem
      | some w =>
        refine ⟨w, rfl, Bool.not_eq_false _ ▸ fun hne => ?_⟩
        have hmem : (e.1, e.2, w) ∈ (compareEntries as bs).modified := mem_modified_iff.mpr ⟨he, hw, hne⟩
        rw [hmodified] at hmem
        cases hmem
    refine ⟨⟨fun e he => ?_, fun f hf => ?_⟩, fun e he => ?_⟩
    · rcases hsame e he with ⟨w, hw, hew⟩
      exact ⟨w, hw, ((same_iff_alike e.2 w).mp hew).1⟩
    · rw [Option.isSome_iff_ne_none]
      intro hnone
      have hmem : f ∈ (compareEntries as bs).added := mem_added_iff.mpr ⟨hf, hnone⟩
      rw [hadded] at hmem
      cases hmem
    · rcases hsame e he with ⟨w, -, hew⟩
      exact ((same_iff_alike e.2 w).mp hew).2
  · rintro ⟨⟨hvalues, hback⟩, hproper⟩
    refine ⟨eq_nil_iff_forall_not_mem.mpr fun e he => ?_, eq_nil_iff_forall_not_mem.mpr fun e he => ?_,
      eq_nil_iff_forall_not_mem.mpr fun m hm => ?_⟩
    · rcases mem_added_iff.mp he with ⟨he, hnone⟩
      have hsome := hback e he
      rw [hnone] at hsome
      cases hsome
    · rcases mem_removed_iff.mp he with ⟨he, hnone⟩
      rcases hvalues e he with ⟨w, hw, -⟩
      rw [hnone] at hw
      cases hw
    · rcases mem_modified_iff.mp hm with ⟨he, hw, hne⟩
      rcases hvalues _ he with ⟨w, hw', halike⟩
      rw [hw, Option.some.injEq] at hw'
      have hsame := (same_iff_alike m.2.1 w).mpr ⟨halike, hproper _ he⟩
      rw [← hw', hne] at hsame
      cases hsame

lemma alike_int (m n : Int) : (Value.int m).alike (.int n) = decide (m = n) := by
  have hiff := Value.alike_of_essence (a := .int m) (b := .int n) rfl
  have hworth : (Value.int n).essence? = some (.number (.finite (.ofInt n))) := rfl
  rw [Bool.eq_iff_iff, hiff, hworth, decide_eq_true_iff, Option.some.injEq, Essence.number.injEq,
    Worth.finite.injEq]
  exact ⟨fun h => (congrArg Rat.num h).symm, fun h => congrArg Rat.ofInt h.symm⟩

lemma mem_indexed {n : Nat} (h : e ∈ indexed n cs) :
  ∃ i : Nat, e.1 = .int (n + i : Nat) ∧ cs[i]? = some e.2 := by
  induction cs generalizing n with
  | nil => cases h
  | cons v cs ih =>
    rcases mem_cons.mp h with rfl | h
    · exact ⟨0, rfl, rfl⟩
    · rcases ih h with ⟨i, hkey, hitem⟩
      exact ⟨i + 1, by rw [hkey]; congr 2; omega, hitem⟩

lemma entryOf_indexed (n i : Nat) (cs : List Value) :
  entryOf (.int (n + i : Nat)) (indexed n cs) = cs[i]? := by
  induction cs generalizing n i with
  | nil => rfl
  | cons v cs ih =>
    rw [indexed, entryOf_cons, alike_int]
    cases i with
    | zero => simp
    | succ i =>
      have hne : ¬ ((n + (i + 1) : Nat) : Int) = n := by omega
      rw [decide_eq_false hne, if_neg Bool.false_ne_true, getElem?_cons_succ, ← ih (n + 1) i]
      congr 3
      omega

lemma mem_differing {n : Nat} {m : Value × Value × Value} (h : m ∈ differing n cs ds) :
  ∃ i : Nat, m.1 = .int (n + i : Nat) ∧ cs[i]? = some m.2.1 ∧ ds[i]? = some m.2.2 := by
  induction cs generalizing n ds with
  | nil => simp [differing] at h
  | cons v cs ih =>
    cases ds with
    | nil => simp [differing] at h
    | cons w ds =>
      have hcase : m = (.int n, v, w) ∨ m ∈ differing (n + 1) cs ds := by
        rw [differing] at h
        split at h
        · exact .inr h
        · exact mem_cons.mp h
      rcases hcase with rfl | h
      · exact ⟨0, rfl, rfl, rfl⟩
      · rcases ih h with ⟨i, hkey, hfirst, hsecond⟩
        exact ⟨i + 1, by rw [hkey]; congr 2; omega, hfirst, hsecond⟩

lemma mem_indexed_of_getElem? {i : Nat} (h : cs[i]? = some v) : (.int i, v) ∈ indexed 0 cs := by
  have hentry := entryOf_indexed 0 i cs
  rw [h, Nat.zero_add] at hentry
  rcases exists_of_entryOf hentry with ⟨⟨k, u⟩, hmem, halike, rfl⟩
  rcases mem_indexed hmem with ⟨j, rfl, -⟩
  rw [alike_int, decide_eq_true_iff] at halike
  rw [halike]
  exact hmem

lemma sameItems_of_differing {n : Nat} (hlength : cs.length = ds.length)
  (h : differing n cs ds = []) : sameItems cs ds = true := by
  induction cs generalizing n ds with
  | nil => rw [length_eq_zero_iff.mp hlength.symm, sameItems]
  | cons v cs ih =>
    cases ds with
    | nil => cases hlength
    | cons w ds =>
      rw [differing] at h
      split at h
      case isTrue hsame =>
        exact Value.sameItems_cons_iff.mpr
          ⟨((same_iff_alike v w).mp hsame).1, ih (Nat.succ.inj hlength) h⟩
      case isFalse => cases h

lemma indexed_eq_nil {n : Nat} (h : indexed n cs = []) : cs = [] := by
  cases cs with
  | nil => rfl
  | cons v cs => cases h

lemma isExact_compareItems (cs ds : List Value) :
  (compareItems cs ds).IsExact (indexed 0 cs) (indexed 0 ds) := by
  have hbeyond : ∀ us ws : List Value, ∀ e ∈ indexed us.length (ws.drop us.length),
      e ∈ indexed 0 ws ∧ entryOf e.1 (indexed 0 us) = none := by
    rintro us ws ⟨k, v⟩ he
    rcases mem_indexed he with ⟨i, rfl, hitem⟩
    rw [getElem?_drop] at hitem
    have hnone := entryOf_indexed 0 (us.length + i) us
    rw [Nat.zero_add, getElem?_eq_none (Nat.le_add_right _ _)] at hnone
    exact ⟨mem_indexed_of_getElem? hitem, hnone⟩
  unfold compareItems
  split
  case isTrue => exact ⟨by simp, by simp, by simp, by simp⟩
  case isFalse hne =>
    refine ⟨⟨Bool.noConfusion, ?_⟩, hbeyond cs ds, hbeyond ds cs, ?_⟩
    · rintro ⟨hadded, hremoved, hmodified⟩
      have hle := drop_eq_nil_iff.mp (indexed_eq_nil hadded)
      have hge := drop_eq_nil_iff.mp (indexed_eq_nil hremoved)
      cases hne (sameItems_of_differing (by omega) hmodified)
    · rintro ⟨k, v, w⟩ hm
      rcases mem_differing hm with ⟨i, rfl, hfirst, hsecond⟩
      have hentry := (entryOf_indexed 0 i ds).trans hsecond
      rw [Nat.zero_add] at hentry ⊢
      exact ⟨mem_indexed_of_getElem? hfirst, hentry⟩

lemma entryOf_indexed_of_lt {m n : Nat} (h : m < n) (cs : List Value) :
  entryOf (.int m) (indexed n cs) = none := by
  rw [← Option.not_isSome_iff_eq_none, isSome_entryOf_iff]
  rintro ⟨⟨k, v⟩, hmem, halike⟩
  rcases mem_indexed hmem with ⟨i, rfl, -⟩
  rw [alike_int, decide_eq_true_iff] at halike
  omega

/-- What is recorded of two lists that differ, with indices from `n` on. -/
def differences (n : Nat) (first second : List Value) : Comparison where
  equal := false
  added := indexed (n + first.length) (second.drop first.length)
  removed := indexed (n + second.length) (first.drop second.length)
  modified := differing n first second

lemma patch_differences_cons (n : Nat) (v w : Value) (cs ds : List Value) :
  (differences n (v :: cs) (w :: ds)).patch (indexed n (v :: cs)) =
    (.int n, if v.same w = true then v else w) ::
      (differences (n + 1) cs ds).patch (indexed (n + 1) cs) := by
  -- Every other index is greater than `n`.
  have hlater : ∀ e ∈ indexed (n + 1) cs, ¬ e.1.alike (.int n) = true := by
    rintro ⟨k, u⟩ he halike
    rcases mem_indexed he with ⟨i, rfl, -⟩
    rw [alike_int, decide_eq_true_iff] at halike
    omega
  have hkept : entryOf (.int n) (differences (n + 1) cs ds).removed = none :=
    entryOf_indexed_of_lt (by omega) _
  have hunchanged : entryOf (.int n)
      ((differences (n + 1) cs ds).modified.map fun m => (m.1, m.2.2)) = none := by
    rw [← Option.not_isSome_iff_eq_none, isSome_entryOf_iff]
    rintro ⟨e, he, halike⟩
    rcases mem_map.mp he with ⟨⟨k, u⟩, hm, rfl⟩
    rcases mem_differing hm with ⟨i, rfl, -⟩
    rw [alike_int, decide_eq_true_iff] at halike
    omega
  have hadded : (differences n (v :: cs) (w :: ds)).added = (differences (n + 1) cs ds).added :=
    congrArg (indexed · _) (by rw [length_cons]; omega)
  have hremoved : (differences n (v :: cs) (w :: ds)).removed = (differences (n + 1) cs ds).removed :=
    congrArg (indexed · _) (by rw [length_cons]; omega)
  have hmodified : (differences n (v :: cs) (w :: ds)).modified =
      if v.same w = true then (differences (n + 1) cs ds).modified
      else (.int n, v, w) :: (differences (n + 1) cs ds).modified := by
    rfl
  rw [Comparison.patch, indexed, hadded, hremoved, filter_cons_of_pos (by rw [hkept]; rfl), map_cons,
    cons_append]
  congr 1
  · rw [hmodified]
    split
    case isTrue => rw [hunchanged]; rfl
    case isFalse =>
      rw [map_cons, entryOf_cons, if_pos (by rw [alike_int, decide_eq_true_iff])]
      rfl
  · rw [Comparison.patch]
    congr 1
    refine map_congr_left fun e he => ?_
    rw [hmodified]
    split
    case isTrue => rfl
    case isFalse => rw [map_cons, entryOf_cons, if_neg (hlater e (mem_filter.mp he).1)]

/-- Item by item, what the patch keeps is the same as in the second list, and the rest is taken from
there. -/
lemma patch_differences (hd : ∀ d ∈ ds, d.alike d = true) (n : Nat) (cs : List Value) :
  ∃ items, (differences n cs ds).patch (indexed n cs) = indexed n items ∧ sameItems items ds = true := by
  induction cs generalizing n ds with
  | nil => exact ⟨ds, rfl, Value.sameItems_refl hd⟩
  | cons v cs ih =>
    cases ds with
    | nil =>
      have hgone : ∀ e ∈ indexed n (v :: cs), ¬ (entryOf e.1 (indexed n (v :: cs))).isNone = true := by
        rintro ⟨k, u⟩ he hnone
        rcases mem_indexed he with ⟨i, rfl, hitem⟩
        rw [entryOf_indexed, hitem] at hnone
        cases hnone
      refine ⟨[], ?_, by rw [sameItems]⟩
      simp only [Comparison.patch, differences, drop_nil, length_nil, Nat.add_zero, drop_zero,
        filter_eq_nil_iff.mpr hgone]
      rfl
    | cons w ds =>
      rcases forall_mem_cons.mp hd with ⟨hw, hd⟩
      rcases ih hd (n + 1) with ⟨items, hpatch, hitems⟩
      refine ⟨(if v.same w = true then v else w) :: items, ?_, ?_⟩
      · rw [patch_differences_cons, hpatch]
        rfl
      · refine Value.sameItems_cons_iff.mpr ⟨?_, hitems⟩
        split
        case isTrue hsame => exact ((same_iff_alike v w).mp hsame).1
        case isFalse => exact hw

/-- For dictionaries, and for lists in order, a comparison is exact and its patch turns the first structure
into the second. Lists are found equal if they are the same. Dictionaries must not hold what is not a
number besides, since that differs from itself. -/
theorem comparison_patches (ha : WellFormed (.dict as)) (hb : WellFormed (.dict bs))
  (hd : WellFormed (.list ds)) :
  (∃ c : Comparison, data.call "compare_data_structures" [.dict as, .dict bs] [] = outcome (.ok c.toValue) ∧
      c.IsExact as bs ∧
      (c.equal = true ↔ (Value.dict as).same (.dict bs) = true ∧
        ∀ e ∈ as, e.2.essence?.all Essence.isProper = true) ∧
      (Value.dict (c.patch as)).same (.dict bs) = true) ∧
    ∃ c : Comparison, data.call "compare_data_structures" [.list cs, .list ds] [] = outcome (.ok c.toValue) ∧
      c.IsExact (indexed 0 cs) (indexed 0 ds) ∧
      (c.equal = true ↔ (Value.list cs).same (.list ds) = true) ∧
      ∃ items, c.patch (indexed 0 cs) = indexed 0 items ∧
        (Value.list items).same (.list ds) = true := by
  have hself : ∀ d ∈ ds, d.alike d = true := fun d hmem => by
    cases hd with
    | scalar h => cases h
    | list h => exact (h d hmem).alike_self
  refine ⟨⟨compareEntries as bs, rfl, isExact_compareEntries as bs, equal_iff_same ha hb, same_patch ha hb⟩,
    compareItems cs ds, rfl, isExact_compareItems cs ds, ?_, ?_⟩
  · rw [Value.same]
    unfold compareItems
    split
    case isTrue h => exact ⟨fun _ => h, fun _ => rfl⟩
    case isFalse h => exact ⟨Bool.noConfusion, fun h' => absurd h' h⟩
  · unfold compareItems
    split
    case isTrue h =>
      refine ⟨cs, ?_, by rw [Value.same]; exact h⟩
      simp [Comparison.patch, entryOf]
    case isFalse h =>
      rcases patch_differences hself 0 cs with ⟨items, hpatch, hitems⟩
      refine ⟨items, ?_, by rw [Value.same]; exact hitems⟩
      rw [← hpatch, differences, Nat.zero_add, Nat.zero_add]

/-- Two objects that are not numbers make lists differ, while one object does not. -/
example : (Value.list [.nan 1]).same (.list [.nan 2]) = false ∧
    (Value.list [.nan 1]).same (.list [.nan 1]) = true := by
  decide +kernel

/-- A dictionary with an object that is not a number, compared with itself. -/
theorem comparison_patches_nan :
  let d : List (Value × Value) := [(.str "a", .nan 1)]
  WellFormed (.dict d) ∧ (Value.dict d).same (.dict d) = true ∧
    ∃ c : Comparison, data.call "compare_data_structures" [.dict d, .dict d] [] =
      outcome (.ok c.toValue) ∧ ¬ c.equal = true := by
  intro d
  have hessence : (Value.nan 1).essence? = some (.number (.nan 2)) := rfl
  have hd : WellFormed (.dict d) := by
    refine .dict (isDictionary_cons.mpr ⟨rfl, forall_mem_nil _, forall_mem_nil _, .nil⟩) ?_
    exact forall_mem_singleton.mpr (.scalar hessence)
  rcases (@comparison_patches d d [] [] hd hd (.list (forall_mem_nil _))).1 with ⟨c, hcall, -, hequal, -⟩
  refine ⟨hd, ?_, c, hcall, fun heq => ?_⟩
  · exact (same_dict_iff hd.keys hd.keys).mpr ⟨forall_mem_singleton.mpr
      ⟨_, hd.keys.entry_self mem_cons_self, (WellFormed.scalar hessence).alike_self⟩,
      forall_mem_singleton.mpr (by rw [hd.keys.entry_self mem_cons_self]; rfl)⟩
  · have hproper := (hequal.mp heq).2 _ mem_cons_self
    rw [hessence] at hproper
    cases hproper

end KeywordDocs.Samples
