import KeywordDocs.Proofs.Highlight.Lookups

/-!
# Which Name is Found

Names are tried with the longest first, and names of one length in the order of the list.
-/

namespace KeywordDocs.Highlight

open Text Markup List

variable {config : Option Json} {v : Vocabulary}

variable {names names' extra : List String} {n : String} {p : String → Bool}

lemma longer_trans (a b c : String) (hab : decide (b.length ≤ a.length))
  (hbc : decide (c.length ≤ b.length)) : decide (c.length ≤ a.length) := by
  simp only [decide_eq_true_eq] at *
  omega

lemma longer_total (a b : String) :
  (decide (b.length ≤ a.length) || decide (a.length ≤ b.length)) := by
  simp only [Bool.or_eq_true, decide_eq_true_eq]
  omega

lemma mem_longestFirst : n ∈ longestFirst names ↔ n ∈ names := mem_mergeSort

lemma filter_longestFirst (h : ∀ a b, p a → p b → a.length = b.length) :
  (longestFirst names).filter p = names.filter p := by
  have hsorted : (names.filter p).Pairwise fun a b => decide (b.length ≤ a.length) := by
    refine pairwise_of_forall_mem_list fun a ha b hb => decide_eq_true ?_
    exact Nat.le_of_eq (h b a (mem_filter.mp hb).2 (mem_filter.mp ha).2)
  have hsub : (names.filter p).Sublist (longestFirst names) :=
    sublist_mergeSort longer_trans longer_total hsorted filter_sublist
  have hfilter := hsub.filter p
  rw [filter_filter] at hfilter
  simp only [Bool.and_self] at hfilter
  refine (hfilter.eq_of_length ?_).symm
  exact ((mergeSort_perm names _).filter p).length_eq.symm

lemma length_le_of_find? (h : (longestFirst names).find? p = some n) {m : String}
  (hm : m ∈ names) (hp : p m) : m.length ≤ n.length := by
  rcases find?_eq_some_iff_append.mp h with ⟨-, before, rest, hsplit, hbefore⟩
  have hsorted := pairwise_mergeSort longer_trans longer_total names
  rw [← longestFirst, hsplit, pairwise_append, pairwise_cons] at hsorted
  have hmem : m ∈ before ++ n :: rest := hsplit ▸ mem_longestFirst.mpr hm
  rcases mem_append.mp hmem with hmem | hmem
  · have hnot := hbefore m hmem
    rw [hp] at hnot
    cases hnot
  · rcases mem_cons.mp hmem with rfl | hmem
    · exact Nat.le_refl _
    · exact of_decide_eq_true (hsorted.2.1.1 m hmem)

lemma find?_longestFirst : (longestFirst names).find? p = some n ↔
  names.find? (fun m => p m && m.length == n.length) = some n ∧ ∀ m ∈ names, p m → m.length ≤ n.length := by
  have hlength : ∀ k : Nat, (longestFirst names).find? (fun m => p m && m.length == k) =
      names.find? fun m => p m && m.length == k := by
    intro k
    rw [← head?_filter, ← head?_filter, filter_longestFirst]
    intro a b ha hb
    simp only [Bool.and_eq_true, beq_iff_eq] at ha hb
    rw [ha.2, hb.2]
  have hforward : ∀ {n}, (longestFirst names).find? p = some n →
      names.find? (fun m => p m && m.length == n.length) = some n := by
    intro n h
    rw [← hlength]
    rcases find?_eq_some_iff_append.mp h with ⟨hp, before, rest, hsplit, hbefore⟩
    refine find?_eq_some_iff_append.mpr ⟨by simp [hp], before, rest, hsplit, fun m hm => ?_⟩
    have hnot := hbefore m hm
    simp only [Bool.not_eq_true'] at hnot
    simp [hnot]
  refine ⟨fun h => ⟨hforward h, fun m hm hp => length_le_of_find? h hm hp⟩, fun ⟨hfirst, hlongest⟩ => ?_⟩
  have hn := find?_some hfirst
  simp only [Bool.and_eq_true] at hn
  -- Something is found, and it is as long as `n` and found first among the names of that length.
  have hsome : ((longestFirst names).find? p).isSome :=
    find?_isSome.mpr ⟨n, mem_longestFirst.mpr (mem_of_find?_eq_some hfirst), hn.1⟩
  rcases Option.isSome_iff_exists.mp hsome with ⟨m, hm⟩
  have hmn : m.length = n.length :=
    Nat.le_antisymm (hlongest m (mem_longestFirst.mp (mem_of_find?_eq_some hm)) (find?_some hm))
      (length_le_of_find? hm (mem_of_find?_eq_some hfirst) hn.1)
  have hm' := hforward hm
  rw [hmn, hfirst] at hm'
  rw [hm, ← hm']

def Alike (names names' : List String) : Prop :=
  ∀ p, (longestFirst names).find? p = (longestFirst names').find? p

lemma alike_insert (h : extra ⊆ names) (more : List String) :
  Alike (names ++ extra ++ more) (names ++ more) := by
  have hmem : ∀ m, m ∈ names ++ extra ↔ m ∈ names := fun m =>
    ⟨fun hm => (mem_append.mp hm).elim id (@h m), mem_append_left extra⟩
  have hfind : ∀ q : String → Bool, (names ++ extra).find? q = names.find? q := by
    intro q
    rw [find?_append]
    cases hq : names.find? q with
    | some m => rfl
    | none =>
      refine find?_eq_none.mpr fun m hm => ?_
      exact find?_eq_none.mp hq m (h hm)
  intro p
  refine Option.ext fun m => ?_
  rw [find?_longestFirst, find?_longestFirst, find?_append, hfind, ← find?_append]
  simp only [mem_append (t := more), hmem]

lemma alike_append (h : extra ⊆ names) : Alike (names ++ extra) names := by
  have hinsert := alike_insert h []
  rwa [append_nil, append_nil] at hinsert

lemma findSome?_eq_bind {α : Type} (f : String → Option α) (names : List String) :
  names.findSome? f = (names.find? fun m => (f m).isSome).bind f := by
  induction names with
  | nil => rfl
  | cons m names ih =>
    rw [findSome?_cons, find?_cons]
    cases hm : f m with
    | none => exact ih
    | some a => exact hm.symm

lemma findSome?_longestFirst_none {α : Type} {f : String → Option α} (h : ∀ m ∈ names, f m = none) :
  (longestFirst names).findSome? f = none :=
  findSome?_eq_none_iff.mpr fun m hm => h m (mem_longestFirst.mp hm)

lemma findSome?_longestFirst_only {α : Type} {f : String → Option α} {a : α} (hn : n ∈ names)
  (hf : f n = some a) (honly : ∀ m ∈ names, m ≠ n → f m = none) :
  (longestFirst names).findSome? f = some a := by
  cases hfound : (longestFirst names).findSome? f with
  | none =>
    have hnone := findSome?_eq_none_iff.mp hfound n (mem_longestFirst.mpr hn)
    rw [hf] at hnone
    cases hnone
  | some b =>
    rcases exists_of_findSome?_eq_some hfound with ⟨m, hm, hb⟩
    by_cases hmn : m = n
    · rw [← hb, hmn, hf]
    · rw [honly m (mem_longestFirst.mp hm) hmn] at hb
      cases hb

lemma Alike.findSome? {α : Type} (h : Alike names names') (f : String → Option α) :
  (longestFirst names).findSome? f = (longestFirst names').findSome? f := by
  rw [findSome?_eq_bind, findSome?_eq_bind, h]

lemma Alike.highlightVariablesWith_eq (h : Alike names names') (text : List Char) :
  highlightVariablesWith (longestFirst names) text = highlightVariablesWith (longestFirst names') text := by
  have hmark : ∀ cs, markKeyword (longestFirst names) cs = markKeyword (longestFirst names') cs := by
    intro cs
    unfold markKeyword
    rw [h.findSome?]
  unfold highlightVariablesWith
  simp only [hmark]

lemma Alike.stepIn_eq (h : Alike names names') (indent content : List Char) :
  stepIn names indent content = stepIn names' indent content := by
  have hleading : leadingKeyword (longestFirst names) content =
      leadingKeyword (longestFirst names') content := h.findSome? _
  unfold stepIn
  simp only [hleading, h.highlightVariablesWith_eq]

lemma highlightLine_congr {v' : Vocabulary} (hv : v.names? config = some names)
  (hv' : v'.names? config = some names') (h : Alike names names')
  (hstep : Alike (names ++ controlWords) (names' ++ controlWords)) (line : String) :
  (outcome (highlightLine config line) v).1 = (outcome (highlightLine config line) v').1 := by
  have hescaped : ∀ cs, (outcome (highlightEscaped config cs) v).1 =
      (outcome (highlightEscaped config cs) v').1 := by
    intro cs
    unfold highlightEscaped
    cases classify cs with
    | step indent content =>
      rw [outcome_highlightStep, outcome_highlightStep, hv, hv']
      exact congrArg Except.ok (hstep.stepIn_eq indent content)
    | other =>
      rw [outcome_highlightVariables, outcome_highlightVariables, hv, hv']
      exact congrArg Except.ok (h.highlightVariablesWith_eq cs)
    | comment | sectionHeader | setting | title => rfl
  unfold highlightLine
  split
  · rfl
  · rw [outcome_map, outcome_map, hescaped]

lemma dropRepeats_sublist (l : List String) : (dropRepeats l).Sublist l := by
  fun_induction dropRepeats l with
  | case1 a rest ih => exact ih.cons a
  | case2 a b rest _ ih => exact ih.cons_cons a
  | case3 l => exact List.Sublist.refl l

lemma dropRepeats_nodup {l : List String} (h : l.Pairwise fun a b => a ≤ b) :
  (dropRepeats l).Nodup := by
  fun_induction dropRepeats l with
  | case1 a rest ih => exact ih (pairwise_cons.mp h).2
  | case2 a b rest hab ih =>
    rcases pairwise_cons.mp h with ⟨ha, hrest⟩
    refine nodup_cons.mpr ⟨fun hmem => ?_, ih hrest⟩
    -- A repetition further on would have the left neighbour between it and `a`.
    rcases mem_cons.mp (mem_dropRepeats.mp hmem) with rfl | hmem
    · exact hab rfl
    · exact hab (String.le_antisymm (ha b mem_cons_self) ((pairwise_cons.mp hrest).1 a hmem))
  | case3 l hshort =>
    cases l with
    | nil => exact nodup_nil
    | cons a l =>
      cases l with
      | nil => exact pairwise_singleton _ a
      | cons b rest => cases (hshort a b rest) rfl

lemma mergeSort_sorted (l : List String) :
  (l.mergeSort fun a b => a ≤ b).Pairwise fun a b => a ≤ b := by
  refine List.Pairwise.imp of_decide_eq_true (pairwise_mergeSort ?_ ?_ l)
  · intro a b c hab hbc
    exact decide_eq_true (String.le_trans (of_decide_eq_true hab) (of_decide_eq_true hbc))
  · intro a b
    simpa using String.le_total a b

lemma sortedNames_congr {l l' : List String} (h : ∀ n, n ∈ l ↔ n ∈ l') :
  sortedNames l = sortedNames l' := by
  refine List.Perm.eq_of_pairwise (fun a b _ _ => String.le_antisymm)
    ((mergeSort_sorted l).sublist (dropRepeats_sublist _))
    ((mergeSort_sorted l').sublist (dropRepeats_sublist _)) ?_
  refine (perm_ext_iff_of_nodup (dropRepeats_nodup (mergeSort_sorted l))
    (dropRepeats_nodup (mergeSort_sorted l'))).mpr fun n => ?_
  rw [← sortedNames, ← sortedNames, mem_sortedNames, mem_sortedNames, h n]

lemma buildNames_inj {attached attached' : List Value} {config config' : Option Json}
  {names names' : List String} (h : buildNames attached config = some names)
  (h' : buildNames attached' config' = some names') (hmem : ∀ n, n ∈ names ↔ n ∈ names') :
  names = names' := by
  rcases Option.map_eq_some_iff.mp h with ⟨extra, -, rfl⟩
  rcases Option.map_eq_some_iff.mp h' with ⟨extra', -, rfl⟩
  exact sortedNames_congr fun n => by rw [← mem_sortedNames, hmem, mem_sortedNames]

end KeywordDocs.Highlight
