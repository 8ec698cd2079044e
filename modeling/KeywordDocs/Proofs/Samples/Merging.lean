import KeywordDocs.Proofs.Samples.Entries
import KeywordDocs.Samples.Data

/-!
# Merging WellFormed Dictionaries

Two nested dictionaries are merged level by level: two dictionaries under one key are merged in turn, and
otherwise the second one's value takes the place of the first one's.

This is best said by paths, by induction on the path and not on the trees. One level is a matter of one key
(`entryOf_deepMerge`). A value of the first dictionary is kept exactly if the second one says nothing at its
path and does not end on the way there.
-/

namespace KeywordDocs.Samples

open List

def isDict : Value → Bool
  | .dict _ => true
  | _ => false

/-- The value at the end of a path of keys. -/
def valueAt : Value → List String → Option Value
  | v, [] => some v
  | .dict entries, k :: path => (entryOf (.str k) entries).bind (valueAt · path)
  | _, _ :: _ => none

variable {a b entries : List (Value × Value)} {k v w : Value} {path : List String}

theorem alike_str (s t : String) : (Value.str s).alike (.str t) = decide (s = t) := by
  have hiff := Value.alike_of_essence (a := .str s) (b := .str t) rfl
  have htext : (Value.str t).essence? = some (.text t) := rfl
  rw [Bool.eq_iff_iff, hiff, htext, decide_eq_true_iff, Option.some.injEq, Essence.text.injEq, eq_comm]

/-- One level of a merge: each key of the second dictionary is set once, to what its value makes of the
first one's. -/
theorem entryOf_deepMerge (ha : IsDictionary a) (hb : IsDictionary b) (hk : k.isHashable = true) :
  entryOf k (deepMerge a b) = ((entryOf k b).map (mergedValue (entryOf k a))).or (entryOf k a) := by
  induction b generalizing a with
  | nil => rfl
  | cons e rest ih =>
    rcases isDictionary_cons.mp hb with ⟨he, hne, hrest⟩
    rw [deepMerge, ih (ha.setEntry he _) hrest, entryOf_setEntry ha hk he, entryOf_cons]
    by_cases hke : k.alike e.1 = true
    · rw [if_pos hke, if_pos hke]
      -- The rest does not have the key again.
      have hnone : entryOf k rest = none := by
        refine Option.eq_none_iff_forall_ne_some.mpr fun u hu => ?_
        rcases exists_of_entryOf hu with ⟨f, hf, hkf, -⟩
        have hef := Value.alike_trans e.1 k f.1 he (Value.alike_symm k e.1 hk hke) hkf
        exact absurd hef (by rw [hne f hf]; exact Bool.false_ne_true)
      have hsame : entryOf k a = entryOf e.1 a := by
        refine congrArg (Option.map Prod.snd) (congrArg (find? · a) (funext fun f => ?_))
        exact Bool.eq_iff_iff.mpr
          ⟨Value.alike_trans e.1 k f.1 he (Value.alike_symm k e.1 hk hke), Value.alike_trans k e.1 f.1 hk hke⟩
      rw [hnone, hsame]
      rfl
    · rw [if_neg hke, if_neg hke]

theorem mergedValue_of_not_dict (old : Option Value) (h : isDict w = false) : mergedValue old w = w := by
  cases w <;> first | rfl | cases h

theorem mergedValue_over (h : ∀ as, entryOf k a ≠ some (.dict as)) (w : Value) :
  mergedValue (entryOf k a) w = w := by
  cases w with
  | dict bs =>
    unfold mergedValue
    split
    case h_1 as heq => cases (h as) heq
    case h_2 => rfl
  | _ => rfl

theorem wellFormed_deepMerge (ha : WellFormed (.dict a)) (hb : WellFormed (.dict b)) :
  WellFormed (.dict (deepMerge a b)) := by
  generalize hd : Value.dict b = d at hb
  induction hb generalizing a b with
  | @dict entries keys values ih =>
    cases hd
    -- The entries are set one after another, and the hypothesis on the tree serves every one of them.
    induction entries generalizing a with
    | nil => exact ha
    | cons e rest ihrest =>
      rcases isDictionary_cons.mp keys with ⟨he, -, hrest⟩
      rw [deepMerge]
      refine ihrest hrest (fun f hf => values f (mem_cons_of_mem e hf))
        (fun f hf => ih f (mem_cons_of_mem e hf)) (.dict (ha.keys.setEntry he _) fun f hf => ?_)
      rcases mem_setEntry hf with hf | ⟨hvalue, -⟩
      · exact ha.values f hf
      · rw [hvalue]
        by_cases hold : ∃ as, entryOf e.1 a = some (.dict as)
        · rcases hold with ⟨as, hold⟩
          rw [hold]
          rcases e with ⟨key, w⟩
          cases w with
          | dict bs => exact ih (key, .dict bs) mem_cons_self (ha.entry hold) rfl
          | _ => exact values (key, _) mem_cons_self
        · rw [mergedValue_over fun as h => hold ⟨as, h⟩]
          exact values e mem_cons_self
  | scalar h =>
    rw [← hd] at h
    cases h
  | _ => cases hd

/-- The second dictionary leaves room at a path: it has nothing there and only dictionaries on the way. -/
def LeavesRoom (d : Value) (path : List String) : Prop :=
  valueAt d path = none ∧
    ∀ front w, front <+: path → front ≠ path → valueAt d front = some w → isDict w = true

theorem leavesRoom_cons {k : String} (h : entryOf (.str k) b = some w) :
  LeavesRoom (.dict b) (k :: path) ↔ LeavesRoom w path := by
  have hvalue : ∀ p, valueAt (.dict b) (k :: p) = valueAt w p := fun p => by rw [valueAt, h]; rfl
  constructor
  · rintro ⟨hnone, hway⟩
    refine ⟨(hvalue path).symm.trans hnone, fun front u hfront hne hu => ?_⟩
    exact hway (k :: front) u (cons_prefix_cons.mpr ⟨rfl, hfront⟩) (fun h => hne (cons.inj h).2)
      ((hvalue front).trans hu)
  · rintro ⟨hnone, hway⟩
    refine ⟨(hvalue path).trans hnone, fun front u hfront hne hu => ?_⟩
    cases front with
    | nil =>
      cases hu
      rfl
    | cons j front =>
      rcases cons_prefix_cons.mp hfront with ⟨rfl, hrest⟩
      exact hway front u hrest (fun h => hne (h ▸ rfl)) ((hvalue front).symm.trans hu)

theorem valueAt_deepMerge (ha : WellFormed (.dict a)) (hb : WellFormed (.dict b)) (path : List String)
  (hv : isDict v = false) : valueAt (.dict (deepMerge a b)) path = some v ↔
    valueAt (.dict b) path = some v ∨ valueAt (.dict a) path = some v ∧ LeavesRoom (.dict b) path := by
  have hroot : ∀ es : List (Value × Value), valueAt (.dict es) [] ≠ some v := by
    intro es h
    cases h
    cases hv
  induction path generalizing a b with
  | nil => exact iff_of_false (hroot _) fun h => h.elim (hroot b) fun h => hroot a h.1
  | cons k path ih =>
    have hlevel : ∀ es, valueAt (.dict es) (k :: path) =
        (entryOf (.str k) es).bind (valueAt · path) := fun _ => rfl
    rw [hlevel, hlevel, hlevel, entryOf_deepMerge ha.keys hb.keys rfl]
    cases hnew : entryOf (.str k) b with
    | none =>
      -- Nothing is said under this key, and so nothing on the way either.
      have hroom : LeavesRoom (.dict b) (k :: path) := by
        refine ⟨by rw [hlevel, hnew]; rfl, fun front w hfront _ hw => ?_⟩
        cases front with
        | nil =>
          cases hw
          rfl
        | cons j front =>
          rw [(cons_prefix_cons.mp hfront).1, valueAt, hnew] at hw
          cases hw
      simp [hroom]
    | some w =>
      by_cases hboth : isDict w = true ∧ ∃ as, entryOf (.str k) a = some (.dict as)
      · rcases hboth with ⟨hw, as, hold⟩
        rw [leavesRoom_cons hnew, hold]
        cases w with
        | dict bs => exact ih (ha.entry hold) (hb.entry hnew)
        | _ => cases hw
      · -- The second value takes the place of the first one, which left no room for it.
        have hover : mergedValue (entryOf (.str k) a) w = w := by
          by_cases hw : isDict w = true
          · exact mergedValue_over (fun as h => hboth ⟨hw, as, h⟩) w
          · exact mergedValue_of_not_dict _ (Bool.not_eq_true _ ▸ hw)
        change valueAt (mergedValue _ w) path = some v ↔ valueAt w path = some v ∨ _
        rw [hover]
        refine (or_iff_left ?_).symm
        rintro ⟨hold, hnone, hway⟩
        rcases Option.bind_eq_some_iff.mp hold with ⟨u, hu, hpath⟩
        have hself : valueAt (.dict b) [k] = some w := by rw [valueAt, hnew]; rfl
        cases path with
        | nil => cases (Option.some_ne_none w) (hself.symm.trans hnone)
        | cons j path =>
          have hw := hway [k] w ⟨j :: path, rfl⟩ (by simp) hself
          refine hboth ⟨hw, ?_⟩
          cases u with
          | dict as => exact ⟨as, hu⟩
          | _ => cases hpath

/-- Merged deeply, two nested dictionaries give one whose values other than dictionaries are those of
the second, and those of the first at the paths where the second leaves room for them. -/
theorem merged_values (ha : WellFormed (.dict a)) (hb : WellFormed (.dict b)) :
  ∃ m, data.call "merge_dictionaries" [.dict a, .dict b] [("strategy", .str "deep_merge")] =
      outcome (.ok (.dict m)) ∧ WellFormed (.dict m) ∧
    ∀ path v, isDict v = false → (valueAt (.dict m) path = some v ↔
      valueAt (.dict b) path = some v ∨
        valueAt (.dict a) path = some v ∧ valueAt (.dict b) path = none ∧
          ∀ front w, front <+: path → front ≠ path → valueAt (.dict b) front = some w →
            isDict w = true) :=
  ⟨deepMerge a b, rfl, wellFormed_deepMerge ha hb, fun path _ hv => valueAt_deepMerge ha hb path hv⟩

/-- An empty dictionary takes the place of a number, and leaves what is in another one. -/
theorem merged_values_empty :
  ∃ m, data.call "merge_dictionaries"
      [.dict [(.str "x", .dict [(.str "y", .int 1)]), (.str "z", .int 2)],
        .dict [(.str "x", .dict []), (.str "z", .dict [])]]
      [("strategy", .str "deep_merge")] = outcome (.ok (.dict m)) ∧
    valueAt (.dict m) ["x", "y"] = some (.int 1) ∧ valueAt (.dict m) ["z"] ≠ some (.int 2) := by
  have hkeys : ∀ v w : Value, IsDictionary [(.str "x", v), (.str "z", w)] := fun v w =>
    ⟨by simp [Value.isHashable], by simp [alike_str]⟩
  have hempty : WellFormed (.dict []) := .dict ⟨forall_mem_nil _, Pairwise.nil⟩ (forall_mem_nil _)
  have hinner : WellFormed (.dict [(.str "y", .int 1)]) :=
    .dict ⟨by simp [Value.isHashable], by simp⟩ (by simpa using .scalar rfl)
  have ha : WellFormed (.dict [(.str "x", .dict [(.str "y", .int 1)]), (.str "z", .int 2)]) :=
    .dict (hkeys _ _) (by simpa using ⟨hinner, .scalar rfl⟩)
  have hb : WellFormed (.dict [(.str "x", .dict []), (.str "z", .dict [])]) :=
    .dict (hkeys _ _) (by simpa using hempty)
  rcases merged_values ha hb with ⟨m, hm, -, hvalues⟩
  refine ⟨m, hm, (hvalues _ _ rfl).mpr (.inr ⟨rfl, rfl, fun front w hfront hne hw => ?_⟩), fun h => ?_⟩
  · rcases prefix_cons_iff.mp hfront with rfl | ⟨rest, rfl, hrest⟩
    · cases hw
      rfl
    · cases rest with
      | nil =>
        cases hw
        rfl
      | cons y rest =>
        rcases cons_prefix_cons.mp hrest with ⟨rfl, hlast⟩
        cases prefix_nil.mp hlast
        cases hne rfl
  · rcases (hvalues _ _ rfl).mp h with h | ⟨-, h, -⟩ <;> simp [valueAt, entryOf_cons, alike_str] at h

end KeywordDocs.Samples
