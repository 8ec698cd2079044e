import KeywordDocs.Samples.Kinds

/-!
# Dictionaries as Lists of Entries

Keys of dictionaries are compared with each other and with what is looked up. Among the values that can be
keys, being alike is an equivalence: an equality of essences for values that are no containers, and item by
item for tuples.

In a dictionary no two keys are alike, so a key has at most one entry, and a dictionary whose keys are all
found in another one is not longer.
-/

namespace KeywordDocs.Value

open List

variable {a b : Value} {as bs cs : List Value} {x : Essence}

theorem alike_of_essence (h : a.essence? = some x) : a.alike b = true ↔ b.essence? = some x := by
  have hsame : a.same b = a.sameScalar b := by
    cases a <;> first | simp only [same] | cases h
  rw [alike, hsame, sameScalar, identical, h]
  cases b.essence? with
  | none => simp
  | some y => by_cases hxy : x = y <;> simp [hxy, eq_comm]

theorem alike_tuple_iff : (Value.tuple as).alike b = true ↔ ∃ bs, b = .tuple bs ∧ sameItems as bs = true := by
  cases b <;> simp [alike, identical, essence?, worth?, asText?, same]

theorem sameItems_cons_iff : sameItems (a :: as) (b :: bs) = true ↔
  a.alike b = true ∧ sameItems as bs = true := by
  rw [sameItems, alike, Bool.and_eq_true]

theorem eq_nil_of_sameItems (h : sameItems [] bs = true) : bs = [] := by
  cases bs with
  | nil => rfl
  | cons b bs => simp [sameItems] at h

theorem exists_cons_of_sameItems (h : sameItems (a :: as) bs = true) :
  ∃ b bs', bs = b :: bs' ∧ a.alike b = true ∧ sameItems as bs' = true := by
  cases bs with
  | nil => simp [sameItems] at h
  | cons b bs => exact ⟨b, bs, rfl, sameItems_cons_iff.mp h⟩

theorem sameItems_refl (h : ∀ a ∈ as, a.alike a = true) : sameItems as as = true := by
  induction as with
  | nil => rw [sameItems]
  | cons a as ih =>
    rcases forall_mem_cons.mp h with ⟨ha, has⟩
    exact sameItems_cons_iff.mpr ⟨ha, ih has⟩

theorem sameItems_symm (h : ∀ a ∈ as, ∀ b, a.alike b = true → b.alike a = true)
  (hab : sameItems as bs = true) : sameItems bs as = true := by
  induction as generalizing bs with
  | nil =>
    cases eq_nil_of_sameItems hab
    exact hab
  | cons a as ih =>
    rcases forall_mem_cons.mp h with ⟨ha, has⟩
    rcases exists_cons_of_sameItems hab with ⟨b, bs, rfl, hb, hbs⟩
    exact sameItems_cons_iff.mpr ⟨ha b hb, ih has hbs⟩

theorem sameItems_trans
  (h : ∀ a ∈ as, ∀ b c, a.alike b = true → b.alike c = true → a.alike c = true)
  (hab : sameItems as bs = true) (hbc : sameItems bs cs = true) : sameItems as cs = true := by
  induction as generalizing bs cs with
  | nil =>
    cases eq_nil_of_sameItems hab
    exact hbc
  | cons a as ih =>
    rcases forall_mem_cons.mp h with ⟨ha, has⟩
    rcases exists_cons_of_sameItems hab with ⟨b, bs, rfl, hb, hbs⟩
    rcases exists_cons_of_sameItems hbc with ⟨c, cs, rfl, hc, hcs⟩
    exact sameItems_cons_iff.mpr ⟨ha b c hb hc, ih has hbs hcs⟩

theorem isHashable_of_mem (h : areHashable as = true) (ha : a ∈ as) : a.isHashable = true := by
  induction as with
  | nil => cases ha
  | cons b as ih =>
    rcases Bool.and_eq_true_iff.mp h with ⟨hb, has⟩
    rcases mem_cons.mp ha with rfl | ha
    · exact hb
    · exact ih has ha

theorem hashable_cases (h : a.isHashable = true) :
  (∃ x, a.essence? = some x) ∨ ∃ as, a = .tuple as ∧ areHashable as = true := by
  cases a with
  | tuple as => exact .inr ⟨as, rfl, h⟩
  | list as | set as | dict as => cases h
  | member mode e name v =>
    left
    unfold essence?
    split <;> exact ⟨_, rfl⟩
  | _ => exact .inl ⟨_, rfl⟩

theorem hashable_induction {P : Value → Prop} (hscalar : ∀ a x, a.essence? = some x → P a)
  (htuple : ∀ as, (∀ a ∈ as, P a) → P (.tuple as)) (a : Value) (ha : a.isHashable = true) : P a := by
  rcases hashable_cases ha with ⟨x, hx⟩ | ⟨as, heq, has⟩
  · exact hscalar a x hx
  · rw [heq]
    refine htuple as fun b hb => ?_
    have hlt : sizeOf b < sizeOf a := by
      have := sizeOf_lt_of_mem hb
      rw [heq, tuple.sizeOf_spec]
      omega
    exact hashable_induction hscalar htuple b (isHashable_of_mem has hb)
termination_by sizeOf a

theorem alike_self (a : Value) (ha : a.isHashable = true) : a.alike a = true := by
  refine hashable_induction (fun a x hx => (alike_of_essence hx).mpr hx) (fun as ih => ?_) a ha
  exact alike_tuple_iff.mpr ⟨as, rfl, sameItems_refl ih⟩

theorem alike_symm (a b : Value) (ha : a.isHashable = true) (h : a.alike b = true) :
  b.alike a = true := by
  refine hashable_induction (P := fun a => ∀ b, a.alike b = true → b.alike a = true)
    (fun a x hx b h => ?_) (fun as ih b h => ?_) a ha b h
  · exact (alike_of_essence ((alike_of_essence hx).mp h)).mpr hx
  · rcases alike_tuple_iff.mp h with ⟨bs, rfl, hitems⟩
    exact alike_tuple_iff.mpr ⟨as, rfl, sameItems_symm ih hitems⟩

theorem alike_trans (a b c : Value) (ha : a.isHashable = true) (hab : a.alike b = true)
  (hbc : b.alike c = true) : a.alike c = true := by
  refine hashable_induction
    (P := fun a => ∀ b c, a.alike b = true → b.alike c = true → a.alike c = true)
    (fun a x hx b c hab hbc => ?_) (fun as ih b c hab hbc => ?_) a ha b c hab hbc
  · exact (alike_of_essence hx).mpr ((alike_of_essence ((alike_of_essence hx).mp hab)).mp hbc)
  · rcases alike_tuple_iff.mp hab with ⟨bs, rfl, hitems⟩
    rcases alike_tuple_iff.mp hbc with ⟨cs, rfl, hitems'⟩
    exact alike_tuple_iff.mpr ⟨cs, rfl, sameItems_trans ih hitems hitems'⟩

end KeywordDocs.Value

namespace KeywordDocs.Samples

open List

/-- The keys can be looked up, and no two of them are alike. -/
structure IsDictionary (entries : List (Value × Value)) : Prop where
  hashable : ∀ e ∈ entries, e.1.isHashable = true
  apart : entries.Pairwise fun e f => e.1.alike f.1 = false

/-- Values all of whose dictionaries have keys apart, down to any depth. -/
inductive WellFormed : Value → Prop
  | scalar {v : Value} {x : Essence} (h : v.essence? = some x) : WellFormed v
  | list {vs : List Value} (h : ∀ v ∈ vs, WellFormed v) : WellFormed (.list vs)
  | tuple {vs : List Value} (h : ∀ v ∈ vs, WellFormed v) : WellFormed (.tuple vs)
  | set {vs : List Value} (h : ∀ v ∈ vs, WellFormed v) : WellFormed (.set vs)
  | dict {entries : List (Value × Value)} (keys : IsDictionary entries)
      (values : ∀ e ∈ entries, WellFormed e.2) : WellFormed (.dict entries)

variable {entries others : List (Value × Value)} {j k v w : Value} {e f : Value × Value}

theorem WellFormed.keys (h : WellFormed (.dict entries)) : IsDictionary entries := by
  cases h with
  | scalar h => cases h
  | dict keys _ => exact keys

theorem WellFormed.values (h : WellFormed (.dict entries)) : ∀ e ∈ entries, WellFormed e.2 := by
  cases h with
  | scalar h => cases h
  | dict _ values => exact values

theorem WellFormed.entry (h : WellFormed (.dict entries)) (hv : entryOf k entries = some v) :
  WellFormed v := by
  rcases Option.map_eq_some_iff.mp hv with ⟨e, he, rfl⟩
  exact h.values e (mem_of_find?_eq_some he)

theorem isDictionary_cons : IsDictionary (e :: entries) ↔
  e.1.isHashable = true ∧ (∀ f ∈ entries, e.1.alike f.1 = false) ∧ IsDictionary entries := by
  constructor
  · rintro ⟨hhash, hapart⟩
    rcases forall_mem_cons.mp hhash with ⟨he, hhash⟩
    rcases pairwise_cons.mp hapart with ⟨hne, hapart⟩
    exact ⟨he, hne, hhash, hapart⟩
  · rintro ⟨he, hne, hhash, hapart⟩
    exact ⟨forall_mem_cons.mpr ⟨he, hhash⟩, pairwise_cons.mpr ⟨hne, hapart⟩⟩

theorem isSome_entryOf_iff : (entryOf k entries).isSome = true ↔ ∃ e ∈ entries, k.alike e.1 = true := by
  rw [entryOf, Option.isSome_map, find?_isSome]

theorem entryOf_cons (k : Value) (e : Value × Value) (entries : List (Value × Value)) :
  entryOf k (e :: entries) = if k.alike e.1 = true then some e.2 else entryOf k entries := by
  rw [entryOf, find?_cons]
  cases k.alike e.1 <;> rfl

theorem IsDictionary.entry (h : IsDictionary entries) (he : e ∈ entries) (hk : k.isHashable = true)
  (hke : k.alike e.1 = true) : entryOf k entries = some e.2 := by
  induction entries with
  | nil => cases he
  | cons f entries ih =>
    rcases isDictionary_cons.mp h with ⟨hf, hne, h⟩
    rw [entryOf_cons]
    rcases mem_cons.mp he with rfl | he
    · rw [if_pos hke]
    · -- The key of `f` is not alike to that of `e`, and so not to `k` either.
      have hkf : ¬ k.alike f.1 = true := by
        intro hkf
        have hfe := Value.alike_trans f.1 k e.1 hf (Value.alike_symm k f.1 hk hkf) hke
        exact absurd hfe (by rw [hne e he]; exact Bool.false_ne_true)
      rw [if_neg hkf, ih h he]

theorem IsDictionary.entry_self (h : IsDictionary entries) (he : e ∈ entries) :
  entryOf e.1 entries = some e.2 :=
  h.entry he (h.hashable e he) (Value.alike_self e.1 (h.hashable e he))

theorem exists_of_entryOf (h : entryOf k entries = some v) :
  ∃ e ∈ entries, k.alike e.1 = true ∧ e.2 = v := by
  rcases Option.map_eq_some_iff.mp h with ⟨e, he, hv⟩
  have hke : k.alike e.1 = true := find?_some (p := fun e : Value × Value => k.alike e.1) he
  exact ⟨e, mem_of_find?_eq_some he, hke, hv⟩

/-- Keys that are all found in a dictionary are not more than its own. -/
theorem IsDictionary.length_le (h : IsDictionary entries) (h' : IsDictionary others)
  (hfound : ∀ e ∈ entries, ∃ f ∈ others, e.1.alike f.1 = true) :
  entries.length ≤ others.length := by
  induction entries generalizing others with
  | nil => exact Nat.zero_le _
  | cons e entries ih =>
    rcases isDictionary_cons.mp h with ⟨he, hne, hrest⟩
    rcases forall_mem_cons.mp hfound with ⟨⟨f, hf, hef⟩, hfound⟩
    -- The entry found for `e` is found for no other key and can be taken out.
    have hsub := eraseP_sublist (p := fun f => e.1.alike f.1) (l := others)
    have hle := ih hrest ⟨fun g hg => h'.hashable g (hsub.subset hg), h'.apart.sublist hsub⟩ (by
      intro g hg
      rcases hfound g hg with ⟨f', hf', hgf⟩
      refine ⟨f', (mem_eraseP_of_neg fun hef' => ?_).mpr hf', hgf⟩
      have hgash := hrest.hashable g hg
      have heg := Value.alike_trans e.1 f'.1 g.1 he hef' (Value.alike_symm g.1 f'.1 hgash hgf)
      exact absurd heg (by rw [hne g hg]; exact Bool.false_ne_true))
    have hpos := length_pos_of_mem hf
    rw [length_eraseP_of_mem hf hef] at hle
    rw [length_cons]
    omega

theorem setEntry_cons (k v : Value) (e : Value × Value) (entries : List (Value × Value)) :
  setEntry k v (e :: entries) =
    if k.alike e.1 = true then (e.1, v) :: entries else e :: setEntry k v entries := rfl

theorem mem_setEntry (h : e ∈ setEntry k v entries) : e ∈ entries ∨
  e.2 = v ∧ (e.1 = k ∨ ∃ f ∈ entries, k.alike f.1 = true ∧ e.1 = f.1) := by
  induction entries with
  | nil => exact .inr (by rw [mem_singleton.mp h]; exact ⟨rfl, .inl rfl⟩)
  | cons f entries ih =>
    rw [setEntry_cons] at h
    split at h
    case isTrue hkf =>
      rcases mem_cons.mp h with rfl | h
      · exact .inr ⟨rfl, .inr ⟨f, mem_cons_self, hkf, rfl⟩⟩
      · exact .inl (mem_cons_of_mem f h)
    case isFalse =>
      rcases mem_cons.mp h with rfl | h
      · exact .inl mem_cons_self
      · rcases ih h with h | ⟨hv, hk | ⟨g, hg, hkg⟩⟩
        · exact .inl (mem_cons_of_mem f h)
        · exact .inr ⟨hv, .inl hk⟩
        · exact .inr ⟨hv, .inr ⟨g, mem_cons_of_mem f hg, hkg⟩⟩

theorem IsDictionary.setEntry (h : IsDictionary entries) (hk : k.isHashable = true) (v : Value) :
  IsDictionary (setEntry k v entries) := by
  induction entries with
  | nil => exact isDictionary_cons.mpr ⟨hk, forall_mem_nil _, h⟩
  | cons f entries ih =>
    rcases isDictionary_cons.mp h with ⟨hf, hne, hrest⟩
    rw [setEntry_cons]
    split
    case isTrue => exact isDictionary_cons.mpr ⟨hf, hne, hrest⟩
    case isFalse hkf =>
      refine isDictionary_cons.mpr ⟨hf, fun e he => ?_, ih hrest⟩
      rcases mem_setEntry he with he | ⟨-, hek | ⟨g, hg, -, heg⟩⟩
      · exact hne e he
      · rw [hek]
        exact Bool.eq_false_iff.mpr fun hfk => hkf (Value.alike_symm f.1 k hf hfk)
      · exact heg ▸ hne g hg

theorem entryOf_setEntry (h : IsDictionary entries) (hj : j.isHashable = true)
  (hk : k.isHashable = true) (v : Value) : entryOf j (setEntry k v entries) =
    if j.alike k = true then some v else entryOf j entries := by
  induction entries with
  | nil => exact entryOf_cons j (k, v) []
  | cons f entries ih =>
    rcases isDictionary_cons.mp h with ⟨hf, -, hrest⟩
    rw [setEntry_cons, entryOf_cons j f]
    split
    case isTrue hkf =>
      have hjf : j.alike k = j.alike f.1 := Bool.eq_iff_iff.mpr
        ⟨fun hjk => Value.alike_trans j k f.1 hj hjk hkf,
          fun hjf => Value.alike_trans j f.1 k hj hjf (Value.alike_symm k f.1 hk hkf)⟩
      rw [entryOf_cons, hjf]
      split <;> rfl
    case isFalse hkf =>
      rw [entryOf_cons, ih hrest]
      by_cases hjf : j.alike f.1 = true
      · have hjk : ¬ j.alike k = true := fun hjk =>
          hkf (Value.alike_trans k j f.1 hk (Value.alike_symm j k hj hjk) hjf)
        rw [if_pos hjf, if_pos hjf, if_neg hjk]
      · rw [if_neg hjf, if_neg hjf]

end KeywordDocs.Samples
