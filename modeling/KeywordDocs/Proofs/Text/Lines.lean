import KeywordDocs.Proofs.Text.Rewriting
import Mathlib.Data.List.Induction

/-!
# Lines with Content

How many empty lines stand between, before and after the lines of a text often does not matter. `filledLines`
is the view of a text that forgets these.
-/

namespace KeywordDocs.Text

open List
open List (intercalate)

variable {sep c : Char} {cs : List Char}

lemma splitAtChar_ne_nil (sep : Char) (cs : List Char) : splitAtChar sep cs ≠ [] := by
  cases cs with
  | nil => exact cons_ne_nil _ _
  | cons c cs =>
    rw [splitAtChar]
    split
    · exact cons_ne_nil _ _
    · split <;> exact cons_ne_nil _ _

lemma splitAtChar_cons_of_ne (hc : c ≠ sep) (cs : List Char) :
  ∃ first rest, splitAtChar sep cs = first :: rest ∧
    splitAtChar sep (c :: cs) = (c :: first) :: rest := by
  cases hsplit : splitAtChar sep cs with
  | nil => cases (splitAtChar_ne_nil sep cs) hsplit
  | cons first rest => exact ⟨first, rest, rfl, by rw [splitAtChar, if_neg hc, hsplit]⟩

lemma splitAtChar_append_cons (sep : Char) (a b : List Char) :
  splitAtChar sep (a ++ sep :: b) = splitAtChar sep a ++ splitAtChar sep b := by
  induction a with
  | nil => simp [splitAtChar]
  | cons c a ih =>
    by_cases hc : c = sep
    · subst hc
      rw [cons_append, splitAtChar, if_pos rfl, ih, splitAtChar, if_pos rfl, cons_append]
    · rcases splitAtChar_cons_of_ne hc (a ++ sep :: b) with ⟨first, rest, hwhole, hcons⟩
      rcases splitAtChar_cons_of_ne hc a with ⟨first', rest', ha, hcons'⟩
      rw [ih, ha, cons_append, List.cons.injEq] at hwhole
      rw [cons_append, hcons, hcons', ← hwhole.1, ← hwhole.2, cons_append]

lemma splitAtChar_of_not_mem (h : sep ∉ cs) : splitAtChar sep cs = [cs] := by
  induction cs with
  | nil => rfl
  | cons c cs ih =>
    have hc : c ≠ sep := fun hc => h (hc ▸ mem_cons_self)
    rcases splitAtChar_cons_of_ne hc cs with ⟨first, rest, hsplit, hcons⟩
    rw [ih fun hcs => h (mem_cons_of_mem c hcs), List.cons.injEq] at hsplit
    rw [hcons, ← hsplit.1, ← hsplit.2]

lemma exists_last (sep : Char) (cs : List Char) :
  sep ∉ cs ∨ ∃ a w, sep ∉ w ∧ cs = a ++ sep :: w := by
  induction cs with
  | nil => exact .inl not_mem_nil
  | cons c cs ih =>
    rcases ih with hcs | ⟨a, w, hw, rfl⟩
    · by_cases hc : c = sep
      · exact .inr ⟨[], cs, hcs, by rw [hc, nil_append]⟩
      · exact .inl fun hmem => (mem_cons.mp hmem).elim (fun h => hc h.symm) hcs
    · exact .inr ⟨c :: a, w, hw, rfl⟩

lemma head?_of_splitAtChar {first : List Char} (h : (splitAtChar sep cs).head? = some first)
  (hfirst : first ≠ []) : cs.head? = first.head? := by
  cases cs with
  | nil =>
    cases h
    cases hfirst rfl
  | cons c cs =>
    by_cases hc : c = sep
    · rw [splitAtChar, if_pos hc] at h
      cases h
      cases hfirst rfl
    · rcases splitAtChar_cons_of_ne hc cs with ⟨line, rest, -, hcons⟩
      rw [hcons] at h
      cases h
      rfl

lemma getLast?_of_splitAtChar {last : List Char} (h : (splitAtChar sep cs).getLast? = some last)
  (hlast : last ≠ []) : cs.getLast? = last.getLast? := by
  rcases exists_last sep cs with hcs | ⟨a, w, hw, rfl⟩
  · rw [splitAtChar_of_not_mem hcs] at h
    cases h
    rfl
  · rw [splitAtChar_append_cons, splitAtChar_of_not_mem hw, getLast?_concat] at h
    cases h
    have hend := getLast?_eq_some_getLast hlast
    rw [getLast?_append, getLast?_cons, hend]
    rfl

variable {sep : List Char}

lemma toList_join (sep : String) (ls : List String) :
  (join sep ls).toList = intercalate sep.toList (ls.map String.toList) := by
  induction ls with
  | nil => rfl
  | cons line ls ih =>
    cases ls with
    | nil => rw [map_singleton, join, intercalate_singleton]
    | cons next ls =>
      rw [map_cons, map_cons, intercalate_cons_cons, ← map_cons, ← ih, join,
        String.toList_append, String.toList_append]
      exact cons_ne_nil _ _

lemma toList_unlines (ls : List (List Char)) :
  (unlines (ls.map String.ofList)).toList = intercalate ['\n'] ls := by
  have hfeed : "\n".toList = ['\n'] := by decide
  have hlines : String.toList ∘ String.ofList = id := funext fun _ => String.toList_ofList
  rw [unlines, toList_join, hfeed, map_map, hlines, map_id]

lemma toList_unlines_cons (line : String) (ls : List String) :
  (unlines (line :: ls)).toList = line.toList ++ ls.flatMap fun l => '\n' :: l.toList := by
  induction ls generalizing line with
  | nil => exact (append_nil _).symm
  | cons next ls ih =>
    have hjoin : unlines (line :: next :: ls) = line ++ "\n" ++ unlines (next :: ls) := rfl
    rw [hjoin, String.toList_append, String.toList_append, ih, append_assoc]
    rfl

lemma intercalate_splitAtChar (sep : Char) (cs : List Char) :
  intercalate [sep] (splitAtChar sep cs) = cs := by
  induction cs with
  | nil => rfl
  | cons c cs ih =>
    by_cases hc : c = sep
    · rw [splitAtChar, if_pos hc, intercalate_cons_of_ne_nil (splitAtChar_ne_nil sep cs), ih, hc]
      rfl
    · rcases splitAtChar_cons_of_ne hc cs with ⟨first, rest, hsplit, hcons⟩
      rw [hsplit] at ih
      rw [hcons]
      cases rest with
      | nil =>
        rw [intercalate_singleton] at ih ⊢
        rw [ih]
      | cons next rest =>
        rw [intercalate_cons_cons] at ih ⊢
        rw [← ih]
        rfl

lemma unlines_lines (s : String) : unlines (lines s) = s := by
  rw [← String.toList_inj, lines, toList_unlines, intercalate_splitAtChar]

lemma intercalate_concat (ls : List (List Char)) (last : List Char) :
  intercalate sep (ls ++ [last]) = ls.flatMap (fun line => line ++ sep) ++ last := by
  induction ls with
  | nil => exact intercalate_singleton
  | cons line ls ih =>
    rw [cons_append, intercalate_cons_of_ne_nil (by simp), ih, flatMap_cons]
    simp only [append_assoc]

lemma intercalate_append {a b : List (List Char)} (ha : a ≠ []) (hb : b ≠ []) :
  intercalate sep (a ++ b) = intercalate sep a ++ sep ++ intercalate sep b := by
  induction a with
  | nil => cases ha rfl
  | cons line a ih =>
    cases a with
    | nil => rw [singleton_append, intercalate_cons_of_ne_nil hb, intercalate_singleton]
    | cons next a =>
      rw [cons_append, intercalate_cons_of_ne_nil (by simp), ih (cons_ne_nil next a), intercalate_cons_cons]
      simp only [append_assoc]

lemma intercalate_flatMap {α : Type} {f : α → List (List Char)} {l : List α}
  (h : ∀ a ∈ l, f a ≠ []) : intercalate sep (l.flatMap f) =
    intercalate sep (l.map fun a => intercalate sep (f a)) := by
  induction l with
  | nil => rfl
  | cons a l ih =>
    rcases forall_mem_cons.mp h with ⟨ha, hl⟩
    cases l with
    | nil => rw [flatMap_cons, flatMap_nil, append_nil, map_singleton, intercalate_singleton]
    | cons b l =>
      have hne : (b :: l).flatMap f ≠ [] := by
        rw [flatMap_cons]
        exact append_ne_nil_of_left_ne_nil (hl b mem_cons_self) _
      rw [flatMap_cons, intercalate_append ha hne, ih hl, map_cons, map_cons, map_cons, intercalate_cons_cons]

def filledLines (cs : List Char) : List (List Char) :=
  (splitAtChar '\n' cs).filter fun line => !line.all isBlank

variable {line : List Char}

lemma filledLines_append (a b : List Char) :
  filledLines (a ++ '\n' :: b) = filledLines a ++ filledLines b := by
  rw [filledLines, splitAtChar_append_cons, filter_append, ← filledLines, ← filledLines]

lemma filledLines_nil : filledLines [] = [] := rfl

lemma filledLines_newline (cs : List Char) : filledLines ('\n' :: cs) = filledLines cs :=
  filledLines_append [] cs

lemma filledLines_feeds {feeds : List Char} (hne : feeds ≠ []) (h : ∀ c ∈ feeds, c = '\n')
  (front rest : List Char) :
  filledLines (front ++ (feeds ++ rest)) = filledLines front ++ filledLines rest := by
  induction feeds generalizing front with
  | nil => cases hne rfl
  | cons c feeds ih =>
    rcases forall_mem_cons.mp h with ⟨rfl, hfeeds⟩
    rw [cons_append, filledLines_append]
    cases feeds with
    | nil => rfl
    | cons d feeds => exact congrArg (_ ++ ·) (ih (cons_ne_nil d feeds) hfeeds [])

lemma filledLines_blank (h : line.all isBlank) (hline : '\n' ∉ line) : filledLines line = [] := by
  rw [filledLines, splitAtChar_of_not_mem hline]
  simp [h]

lemma filledLines_line (h : line.all isBlank = false) (hline : '\n' ∉ line) :
  filledLines line = [line] := by
  rw [filledLines, splitAtChar_of_not_mem hline]
  simp [h]

lemma filledLines_intercalate (parts : List (List Char)) :
  filledLines (intercalate ['\n'] parts) = parts.flatMap filledLines := by
  induction parts with
  | nil => rfl
  | cons part parts ih =>
    cases parts with
    | nil => rw [intercalate_singleton, flatMap_cons, flatMap_nil, append_nil]
    | cons next parts =>
      rw [intercalate_cons_cons, append_assoc, singleton_append, filledLines_append, ih, ← flatMap_cons]

/-- Lines that start and end with no white space. -/
structure Tight (line : List Char) : Prop where
  head : ∀ c ∈ line.head?, isBlank c = false
  last : ∀ c ∈ line.getLast?, isBlank c = false

lemma Tight.all_isBlank (h : Tight line) : line.all isBlank = line.isEmpty := by
  cases line with
  | nil => rfl
  | cons c line => rw [all_cons, h.head c rfl, Bool.false_and, isEmpty_cons]

lemma Tight.trimRightChars_eq (h : Tight line) : trimRightChars line = line := by
  rcases eq_nil_or_concat line with rfl | ⟨front, c, hline⟩
  · rfl
  · rw [concat_eq_append] at hline
    subst hline
    rw [trimRightChars, dropEndWhile_concat, h.last c (by simp), if_neg Bool.false_ne_true]

lemma Tight.trimChars_eq (h : Tight line) : trimChars line = line := by
  have hleft : trimLeftChars line = line := by
    cases line with
    | nil => rfl
    | cons c line => exact dropWhile_cons_of_neg (by rw [h.head c rfl]; exact Bool.false_ne_true)
  rw [trimChars, hleft, h.trimRightChars_eq]

lemma Tight.trimChars_around (h : Tight line) (hne : line ≠ []) {front back : List Char}
  (hfront : ∀ c ∈ front, isBlank c) (hback : ∀ c ∈ back, isBlank c) :
  trimChars (front ++ (line ++ back)) = line := by
  have hleft : trimLeftChars (front ++ (line ++ back)) = line ++ back := by
    rcases exists_cons_of_ne_nil hne with ⟨c, rest, rfl⟩
    rw [trimLeftChars, dropWhile_append_of_pos hfront, cons_append, dropWhile_cons_of_neg]
    rw [h.head c rfl]
    exact Bool.false_ne_true
  have hright : trimRightChars (line ++ back) = trimRightChars line := by
    rw [trimRightChars, dropEndWhile, reverse_append, dropWhile_append_of_pos (by simpa using hback)]
    rfl
  rw [trimChars, hleft, hright, h.trimRightChars_eq]

lemma trimChars_tight (cs : List Char) : Tight (trimChars cs) := by
  have hfront : ∀ l : List Char, ∀ c ∈ (l.dropWhile isBlank).head?, isBlank c = false := by
    intro l c hc
    have h := head?_dropWhile_not isBlank l
    rw [Option.mem_def.mp hc] at h
    exact h
  constructor
  · intro c hc
    have hstart : trimChars cs <+: cs.dropWhile isBlank :=
      reverse_suffix.mp (by
        rw [trimChars, trimLeftChars, trimRightChars, dropEndWhile, reverse_reverse]
        exact dropWhile_suffix _)
    refine hfront cs c (Option.mem_def.mpr ?_)
    rcases hstart with ⟨more, hmore⟩
    rw [← hmore, head?_append, Option.mem_def.mp hc, Option.some_or]
  · intro c hc
    refine hfront (trimLeftChars cs).reverse c ?_
    rwa [trimChars, trimRightChars, dropEndWhile, getLast?_reverse] at hc

lemma filledLines_trimLeftChars (h : ∀ line ∈ filledLines cs, Tight line) :
  filledLines (trimLeftChars cs) = filledLines cs := by
  unfold trimLeftChars
  induction cs with
  | nil => rfl
  | cons c cs ih =>
    cases hc : isBlank c with
    | false => rw [dropWhile_cons_of_neg (by rw [hc]; exact Bool.false_ne_true)]
    | true =>
      rw [dropWhile_cons_of_pos hc]
      have hsame : filledLines (c :: cs) = filledLines cs := by
        by_cases hnewline : c = '\n'
        · subst hnewline
          exact filledLines_newline cs
        · rcases splitAtChar_cons_of_ne hnewline cs with ⟨first, rest, hsplit, hcons⟩
          cases hfirst : first.all isBlank with
          | true => simp [filledLines, hsplit, hcons, hfirst, hc]
          | false =>
            -- The first line would have content and start with white space.
            have hmem : c :: first ∈ filledLines (c :: cs) := by simp [filledLines, hcons, hfirst]
            rw [(h _ hmem).head c rfl] at hc
            cases hc
      rw [hsame] at h ⊢
      exact ih h

lemma filledLines_concat (hc : c ≠ '\n') (cs : List Char) :
  ∃ before line, '\n' ∉ line ++ [c] ∧ filledLines cs = before ++ filledLines line ∧
    filledLines (cs ++ [c]) = before ++ filledLines (line ++ [c]) := by
  have hmem : ∀ line : List Char, '\n' ∉ line → '\n' ∉ line ++ [c] := fun line hline hmem =>
    (mem_append.mp hmem).elim hline fun h => hc (mem_singleton.mp h).symm
  rcases exists_last '\n' cs with hcs | ⟨a, line, hline, rfl⟩
  · exact ⟨[], cs, hmem cs hcs, rfl, rfl⟩
  · refine ⟨filledLines a, line, hmem line hline, filledLines_append a line, ?_⟩
    rw [append_assoc, cons_append, filledLines_append]

lemma filledLines_trimRightChars (h : ∀ line ∈ filledLines cs, Tight line) :
  filledLines (trimRightChars cs) = filledLines cs := by
  unfold trimRightChars
  induction cs using List.reverseRecOn with
  | nil => rfl
  | append_singleton cs c ih =>
    rw [dropEndWhile_concat]
    cases hc : isBlank c with
    | false => rfl
    | true =>
      have hsame : filledLines (cs ++ [c]) = filledLines cs := by
        by_cases hnewline : c = '\n'
        · subst hnewline
          rw [filledLines_append, filledLines_nil, append_nil]
        · rcases filledLines_concat hnewline cs with ⟨before, line, hline, hcs, hconcat⟩
          have hline' : '\n' ∉ line := fun hmem => hline (mem_append_left _ hmem)
          cases hblank : line.all isBlank with
          | true =>
            have hall : (line ++ [c]).all isBlank := by simp [hblank, hc]
            rw [hcs, hconcat, filledLines_blank hblank hline', filledLines_blank hall hline]
          | false =>
            have hall : (line ++ [c]).all isBlank = false := by simp [hblank]
            have hmem : line ++ [c] ∈ filledLines (cs ++ [c]) := by
              rw [hconcat, filledLines_line hall hline]
              simp
            rw [(h _ hmem).last c (by simp)] at hc
            cases hc
      rw [if_pos rfl]
      rw [hsame] at h ⊢
      exact ih h

lemma filledLines_trimChars (h : ∀ line ∈ filledLines cs, Tight line) :
  filledLines (trimChars cs) = filledLines cs := by
  have hleft := filledLines_trimLeftChars h
  rw [trimChars, filledLines_trimRightChars (hleft ▸ h), hleft]

end KeywordDocs.Text
