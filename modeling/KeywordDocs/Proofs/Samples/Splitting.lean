import KeywordDocs.Proofs.Page.Stripping
import KeywordDocs.Samples.Strings

/-!
# Splitting and Joining

A text is cut at a separator from left to right, as often as the limit allows, and joining the parts with the
separator gives it back. A negative limit, the default among them, is refused, so there is no way to ask for
all the parts without saying how many cuts there may be.
-/

namespace KeywordDocs.Samples

open Text List
open Page (splitAtFirst_eq_some)

/-- A keyword that gives one result cannot give another. -/
lemma outcome_injective {α : Type} {a b : Except Fault α}
  (h : (outcome a : Playing α) = outcome b) : a = b := by
  have hrun : ∀ r : Except Fault α, (outcome r : Playing α) = fun scene : Scene => (r, scene) := by
    rintro (f | a) <;> rfl
  rw [hrun, hrun] at h
  exact congrArg Prod.fst (congrFun h { now := ⟨1, 1, 1, 0, 0, 0, 0⟩ })

variable {c : Char} {sep cs a b : List Char}

lemma countFrom_splitAtFirst (h : splitAtFirst (c :: sep) cs = some (a, b)) :
  countFrom (c :: sep) 0 cs = countFrom (c :: sep) 0 b + 1 := by
  induction cs generalizing a with
  | nil => cases h
  | cons d cs ih =>
    rw [splitAtFirst] at h
    split at h
    case h_1 rest hrest =>
      cases h
      rw [dropPrefix?_eq_some hrest, countFrom_found]
    case h_2 hnone =>
      rcases Option.map_eq_some_iff.mp h with ⟨found, hfound, hab⟩
      cases hab
      have hnot : ¬ c :: sep <+: d :: cs := by
        rintro ⟨rest, hrest⟩
        rw [← hrest, dropPrefix?_append] at hnone
        cases hnone
      rw [countFrom_char hnot, ih hfound]

lemma countFrom_of_uncut (h : splitAtFirst (c :: sep) cs = none) : countFrom (c :: sep) 0 cs = 0 := by
  induction cs with
  | nil => rfl
  | cons d cs ih =>
    rw [splitAtFirst] at h
    split at h
    case h_1 => cases h
    case h_2 hnone =>
      have hnot : ¬ c :: sep <+: d :: cs := by
        rintro ⟨rest, hrest⟩
        rw [← hrest, dropPrefix?_append] at hnone
        cases hnone
      rw [countFrom_char hnot, ih (Option.map_eq_none_iff.mp h)]

lemma countFrom_le_length (part : List Char) (covered : Nat) (cs : List Char) :
  countFrom part covered cs ≤ cs.length := by
  fun_induction countFrom part covered cs with
  | case1 => exact Nat.le_refl 0
  | case2 covered _ cs ih => exact Nat.le_succ_of_le ih
  | case3 c cs _ ih => exact Nat.succ_le_succ ih
  | case4 c cs _ ih => exact Nat.le_succ_of_le ih

/-- A cut takes out the separator and nothing else. -/
lemma intercalate_partsUpTo (sep : List Char) (left : Nat) (cs : List Char) :
  sep.intercalate (partsUpTo sep left cs) = cs := by
  fun_induction partsUpTo sep left cs with
  | case1 cs => exact intercalate_singleton
  | case2 left cs part rest hsplit ih =>
    have hne : partsUpTo sep left rest ≠ [] := by
      unfold partsUpTo
      split
      · exact cons_ne_nil _ _
      · split <;> exact cons_ne_nil _ _
    rw [intercalate_cons_of_ne_nil hne, ih, splitAtFirst_eq_some hsplit, append_assoc]
  | case3 => exact intercalate_singleton

lemma length_partsUpTo (c : Char) (sep : List Char) (left : Nat) (cs : List Char) :
  (partsUpTo (c :: sep) left cs).length = min left (countFrom (c :: sep) 0 cs) + 1 := by
  fun_induction partsUpTo (c :: sep) left cs with
  | case1 cs => rw [Nat.zero_min, length_singleton]
  | case2 left cs part rest hsplit ih =>
    rw [length_cons, ih, countFrom_splitAtFirst hsplit, Nat.succ_eq_add_one, Nat.add_min_add_right]
  | case3 left cs hsplit => rw [countFrom_of_uncut hsplit, Nat.min_zero, length_singleton]

variable {text s : String}

lemma splitText_eq (hs : s ≠ "") (cuts : Nat) : ∃ parts : List String,
  splitText text (some s) cuts = .ok parts ∧ joinTexts s parts = text ∧
    parts.length = min cuts (Text.count s text) + 1 := by
  have hempty : s.isEmpty = false := by simpa using hs
  refine ⟨_, by rw [splitText, hempty]; rfl, ?_, ?_⟩
  · rw [← String.toList_inj, joinTexts, toList_join, map_map]
    have hparts : String.toList ∘ String.ofList = id := funext fun _ => String.toList_ofList
    rw [hparts, map_id, intercalate_partsUpTo]
  · cases hlist : s.toList with
    | nil => cases hs (String.toList_eq_nil_iff.mp hlist)
    | cons c sep =>
      have hle := countFrom_le_length (c :: sep) 0 text.toList
      rw [String.length_toList] at hle
      rw [length_map, length_partsUpTo, Text.count, hempty, hlist]
      simp only [Bool.false_eq_true, if_false]
      omega

lemma mapM_textArgument (parts : List String) :
  (parts.map Value.str).mapM textArgument = (.ok parts : Except Fault _) := by
  induction parts with
  | nil => rfl
  | cons part parts ih => rw [map_cons, mapM_cons, ih]; rfl

lemma splitString_eq (text s : String) (n : Int) : splitString (.str text) (.str s) (.int n) =
  if n < 0 then .error .wrongKind
  else if mostCuts < n then .error .overflow
  else (splitText text (some s) n.toNat).map fun parts => .list (parts.map .str) := by
  have hless : Value.less (.int n) (.int 0) = .ok (decide (n < 0)) := by
    have hblt : (Rat.ofInt n).blt (Rat.ofInt 0) = decide (n < 0) := by
      unfold Rat.blt Rat.ofInt
      by_cases hneg : n < 0 <;> simp [hneg]
    exact congrArg Except.ok hblt
  unfold splitString
  simp only [textFor, intArgument, Value.asInt?, hless, bind, Except.bind, decide_eq_true_eq]
  split
  · rfl
  · split <;> rfl

/-- The parts of a text are as many as there are separators to cut at and the limit allows, and joined
with the separator they are the text. This needs a limit that can be counted with and is not
negative: with the default, which stands for no limit, there are no parts at all. -/
theorem join_split_iff (text s : String) (hs : s ≠ "") (n : Int) :
  strings.call "split_string" [.str text, .str s] [] =
      strings.call "split_string" [.str text, .str s, .int (-1)] [] ∧
    (n < 0 → strings.call "split_string" [.str text, .str s, .int n] [] =
      outcome (.error .wrongKind)) ∧
    ((∃ parts : List String,
        strings.call "split_string" [.str text, .str s, .int n] [] =
          outcome (.ok (.list (parts.map .str))) ∧
        strings.call "join_strings" [.list (parts.map .str), .str s] [] =
          outcome (.ok (.str text)) ∧
        parts.length = min n.toNat (Text.count s text) + 1) ↔ 0 ≤ n ∧ n ≤ mostCuts) := by
  have hcall : strings.call "split_string" [.str text, .str s, .int n] [] =
      outcome (splitString (.str text) (.str s) (.int n)) := rfl
  refine ⟨rfl, fun hneg => by rw [hcall, splitString_eq, if_pos hneg], ?_, ?_⟩
  · rintro ⟨parts, hsplit, -, -⟩
    have hok := outcome_injective (hcall.symm.trans hsplit)
    rw [splitString_eq] at hok
    constructor
    · by_contra hneg
      rw [if_pos (by omega)] at hok
      cases hok
    · by_contra hbig
      rw [if_neg (by unfold mostCuts at hbig; omega), if_pos (by omega)] at hok
      cases hok
  · rintro ⟨hnonneg, hmost⟩
    rcases splitText_eq hs n.toNat with ⟨parts, hparts, hjoin, hlength⟩
    refine ⟨parts, ?_, ?_, hlength⟩
    · rw [hcall, splitString_eq, if_neg (by omega), if_neg (by omega), hparts]
      rfl
    · have hjoined : joinStrings (.list (parts.map .str)) (.str s) = .ok (.str text) := by
        unfold joinStrings
        simp only [textFor, items]
        rw [← hjoin]
        exact congrArg (· >>= fun texts => Except.ok (Value.str (joinTexts s texts)))
          (mapM_textArgument parts)
      exact congrArg outcome hjoined

theorem join_split_iff_commas : (",":String) ≠ "" ∧
  strings.call "split_string" [.str "a,b,,c", .str ","] [] = outcome (.error .wrongKind) ∧
    ∃ parts : List String,
      strings.call "split_string" [.str "a,b,,c", .str ",", .int 2] [] =
        outcome (.ok (.list (parts.map .str))) ∧
      strings.call "join_strings" [.list (parts.map .str), .str ","] [] =
        outcome (.ok (.str "a,b,,c")) ∧
      parts.length = 3 := by
  have hsep : (",":String) ≠ "" := by decide
  have hdefault := join_split_iff "a,b,,c" "," hsep (-1)
  rcases (join_split_iff "a,b,,c" "," hsep 2).2.2.mpr (by decide) with ⟨parts, hsplit, hjoin, hlength⟩
  exact ⟨hsep, hdefault.1.trans (hdefault.2.1 (by decide)), parts, hsplit, hjoin, hlength.trans rfl⟩

end KeywordDocs.Samples
