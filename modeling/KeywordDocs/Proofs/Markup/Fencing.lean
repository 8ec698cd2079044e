import KeywordDocs.Markup.Document
import KeywordDocs.Proofs.Highlight.Outcome
import KeywordDocs.Proofs.Markup.Nesting
import Mathlib.Data.List.DropRight

/-!
# Fences in Turn

The fences of a documentation text open and close code in turn, whatever stands between them and whether or
not the last one is closed.
-/

namespace KeywordDocs.Markup

open Text Highlight
open List hiding drop

variable (ls : List String)

/-- Every fence with the lines up to the next one. -/
def stretchesAfter : List String → List (String × List String)
  | [] => []
  | line :: ls =>
    if isFence line then (line, ls.takeWhile fun l => !isFence l) :: stretchesAfter ls
    else stretchesAfter ls

/-- Every other element, starting with the first one. -/
def everyOther {α : Type} : List α → List α
  | a :: _ :: l => a :: everyOther l
  | l => l

/-- The language that is named after the three backticks of a fence, blanks around it aside. -/
def languageOf (fence : String) : String :=
  if trim (drop 3 fence) = "" then "text" else trim (drop 3 fence)

/-- The language of a fence with the lines that are code in it, if there are any. -/
def codeOf (stretch : String × List String) : Option (String × List String) :=
  if stretch.2.isEmpty then none else some (languageOf stretch.1, stretch.2)

/-- The lines after every other fence, each with their language. -/
def codeRuns : List (String × List String) := (everyOther (stretchesAfter ls)).filterMap codeOf

/-- The lines that are no code, the fences among them, given whether the first lines are code. -/
def proseLines : Bool → List String → List String
  | _, [] => []
  | inCode, line :: ls =>
    if isFence line then line :: proseLines (!inCode) ls
    else if inCode then proseLines inCode ls
    else line :: proseLines inCode ls

/-- The language and the lines of code. -/
def Fragment.code? : Fragment → Option (String × List String)
  | .code language lines => some (language, lines)
  | _ => none

open Fragment (code?)

/-- A fragment without a highlighter. -/
def Fragment.plain (f : Fragment) : String := (outcome (f.render none) {}).1.toOption.getD ""

variable {line : String}

lemma isFence_iff : isFence line ↔ ∃ cs, line.toList = '`' :: '`' :: '`' :: cs := by
  rw [isFence, startsWith, isPrefixOf_iff_prefix]
  exact ⟨fun ⟨cs, h⟩ => ⟨cs, h.symm⟩, fun ⟨cs, h⟩ => ⟨cs, h.symm⟩⟩

lemma trimRightChars_cons {c : Char} (hc : isBlank c = false) (cs : List Char) :
  trimRightChars (c :: cs) = c :: trimRightChars cs := by
  induction cs using List.reverseRecOn with
  | nil => rw [trimRightChars, ← nil_append [c], dropEndWhile_concat, hc]; rfl
  | append_singleton cs d ih =>
    rw [← cons_append, trimRightChars, trimRightChars, dropEndWhile_concat, dropEndWhile_concat,
      ← trimRightChars, ih]
    split <;> rfl

lemma trimChars_trimRightChars (cs : List Char) : trimChars (trimRightChars cs) = trimChars cs := by
  induction cs using List.reverseRecOn with
  | nil => rfl
  | append_singleton cs d ih =>
    rw [trimRightChars, dropEndWhile_concat]
    split
    case isFalse => rfl
    case isTrue hd =>
      have hlast : trimChars (cs ++ [d]) = trimChars cs := by
        rw [trimChars, trimChars, trimLeftChars, trimLeftChars, dropWhile_append]
        split
        case isTrue hblank =>
          rw [dropWhile_cons_of_pos hd, List.isEmpty_iff.mp hblank]
          rfl
        case isFalse => rw [trimRightChars, dropEndWhile_concat, if_pos hd, ← trimRightChars]
      rw [← trimRightChars, ih, hlast]

lemma isFence_trimRight : isFence (trimRight line) = isFence line := by
  rw [Bool.eq_iff_iff, isFence_iff, isFence_iff, trimRight, String.toList_ofList]
  constructor
  · rintro ⟨cs, h⟩
    have hfront : trimRightChars line.toList <+: line.toList := rdropWhile_prefix _ _
    rcases hfront with ⟨blanks, hline⟩
    exact ⟨cs ++ blanks, by rw [← hline, h]; rfl⟩
  · rintro ⟨cs, h⟩
    refine ⟨trimRightChars cs, ?_⟩
    rw [h, trimRightChars_cons rfl, trimRightChars_cons rfl, trimRightChars_cons rfl]

lemma fenceLanguage_trimRight (h : isFence line) :
  fenceLanguage (trimRight line) = fenceLanguage line := by
  rcases isFence_iff.mp h with ⟨cs, hline⟩
  have hname : trim (drop 3 (trimRight line)) = trim (drop 3 line) := by
    rw [trim, trim, drop, drop, trimRight, String.toList_ofList, String.toList_ofList,
      String.toList_ofList, hline, trimRightChars_cons rfl, trimRightChars_cons rfl, trimRightChars_cons rfl]
    exact congrArg String.ofList (trimChars_trimRightChars cs)
  rw [fenceLanguage, fenceLanguage, hname]

lemma languageOf_eq (fence : String) : languageOf fence = fenceLanguage fence := by
  simp only [languageOf, fenceLanguage, String.isEmpty_iff]

lemma isBlankText_of_isFence (h : isFence line) : isBlankText line = false := by
  rcases isFence_iff.mp h with ⟨cs, hline⟩
  rw [isBlankText, hline]
  rfl

namespace Reading

variable {st : Reading} {rest : List String}

lemma step_fence : (st.step line rest).2.fence = st.fence := by
  unfold step
  split <;> rfl

lemma closeTable_code? : st.closeTable.filterMap code? = [] := by
  unfold closeTable
  split <;> rfl

lemma closeList_code? : st.closeList.filterMap code? = [] := by
  unfold closeList
  split <;> rfl

lemma step_code? : (st.step line rest).1.filterMap code? = [] := by
  unfold step
  split
  · rw [filterMap_append, closeList_code?]
    rfl
  · rfl
  · rw [filterMap_append]
    split <;> rfl
  · unfold gapAt
    dsimp only
    split <;> rfl
  · rw [filterMap_append, closeList_code?]
    rfl

lemma finish_code? : st.finish.filterMap code? = [] := by
  unfold finish
  rw [filterMap_append, filterMap_append, closeTable_code?, closeList_code?]
  split <;> rfl

lemma stretchesAfter_dropWhile :
  stretchesAfter (ls.dropWhile fun l => !isFence l) = stretchesAfter ls := by
  induction ls with
  | nil => rfl
  | cons line ls ih =>
    cases hline : isFence line with
    | true => rw [dropWhile_cons_of_neg (by simp [hline])]
    | false => rw [dropWhile_cons_of_pos (by simp [hline]), ih, stretchesAfter, hline]; rfl

lemma everyOther_cons {α : Type} (a : α) (l : List α) : everyOther (a :: l) = a :: everyOther l.tail := by
  cases l <;> rfl

def runsLeft (fence : Option String) (ls : List String) : List (String × List String) :=
  match fence with
  | none => codeRuns ls
  | some language =>
    (if (ls.takeWhile fun l => !isFence l).isEmpty then []
      else [(language, ls.takeWhile fun l => !isFence l)]) ++
      (everyOther (stretchesAfter ls).tail).filterMap codeOf

lemma walk_code? (st : Reading) (ls : List String) :
  (st.walk ls).filterMap code? = runsLeft st.fence ls := by
  induction st, ls using Reading.walk.induct with
  | case1 st =>
    rw [walk, finish_code?]
    cases st.fence <;> rfl
  | case2 st raw rest language hfence hraw ih =>
    rw [walk_closing hfence hraw, filterMap_cons_none rfl, ih, hfence, runsLeft, runsLeft,
      stretchesAfter, if_pos hraw, takeWhile_cons_of_neg (by simp [hraw])]
    rfl
  | case3 st raw rest language hfence hraw ih =>
    have hfirst : (rest.dropWhile fun l => !isFence l).takeWhile (fun l => !isFence l) = [] :=
      takeWhile_eq_nil_iff.mpr (dropWhile_get_zero_not _ _)
    rw [walk_code hfence hraw, filterMap_cons_some (f := code?) rfl, ih, hfence, runsLeft, runsLeft,
      hfirst, stretchesAfter_dropWhile, stretchesAfter, if_neg hraw, takeWhile_cons_of_pos (by simp [hraw])]
    rfl
  | case4 st raw rest hfence line hline ih =>
    have hraw : isFence raw := isFence_trimRight.symm.trans hline
    rw [walk_opening hfence hline, filterMap_cons_none rfl, ih, hfence, runsLeft, runsLeft, codeRuns,
      stretchesAfter, if_pos hraw, everyOther_cons, filterMap_cons, codeOf, languageOf_eq,
      fenceLanguage_trimRight hraw]
    dsimp only
    split <;> rfl
  | case5 st raw rest hfence line hline htable ih =>
    have hraw : ¬ isFence raw := fun h => hline (isFence_trimRight.trans h)
    rw [walk_table hfence hline htable, ih, hfence, runsLeft, runsLeft, codeRuns, codeRuns,
      stretchesAfter, if_neg hraw]
  | case6 st raw rest hfence line hline htable out next hstep ih =>
    have hraw : ¬ isFence raw := fun h => hline (isFence_trimRight.trans h)
    have hnext : next = (st.tableClosed.step (trimRight raw) rest).2 := congrArg Prod.snd hstep.symm
    rw [walk_step hfence hline htable, filterMap_append, filterMap_append, closeTable_code?,
      step_code?, ← hnext, ih, hnext, step_fence, tableClosed_fence, hfence, runsLeft, runsLeft,
      codeRuns, codeRuns, stretchesAfter, if_neg hraw]
    rfl

lemma proseLines_dropWhile :
  proseLines true (ls.dropWhile fun l => !isFence l) = proseLines true ls := by
  induction ls with
  | nil => rfl
  | cons line ls ih =>
    cases hline : isFence line with
    | true => rw [dropWhile_cons_of_neg (by simp [hline])]
    | false => rw [dropWhile_cons_of_pos (by simp [hline]), ih, proseLines, hline]; rfl

lemma gapAt_proseLines : st.gapAt (proseLines false rest) = st.gapAt rest := by
  have hnext : (proseLines false rest).find? (fun line => !isBlankText line) =
      rest.find? fun line => !isBlankText line := by
    induction rest with
    | nil => rfl
    | cons line rest ih =>
      have hkept : ∃ inCode, proseLines false (line :: rest) = line :: proseLines inCode rest ∧
          (isBlankText line → inCode = false) := by
        cases hline : isFence line with
        | true =>
          refine ⟨true, by rw [proseLines, hline]; rfl, fun hblank => ?_⟩
          rw [isBlankText_of_isFence hline] at hblank
          cases hblank
        | false => exact ⟨false, by rw [proseLines, hline]; rfl, fun _ => rfl⟩
      rcases hkept with ⟨inCode, hkept, hcode⟩
      rw [hkept, find?_cons, find?_cons]
      cases hblank : isBlankText line with
      | false => rfl
      | true => rw [hcode hblank]; exact ih
  unfold gapAt
  rw [hnext]

lemma step_proseLines : st.step line (proseLines false rest) = st.step line rest := by
  unfold step
  rw [gapAt_proseLines]

lemma filter_of_code? {fs : List Fragment} (h : fs.filterMap code? = []) :
  fs.filter (fun f => f.code?.isNone) = fs :=
  filter_eq_self.mpr fun f hf => Option.isNone_iff_eq_none.mpr (filterMap_eq_nil_iff.mp h f hf)

lemma walk_proseLines (st : Reading) (ls : List String) :
  (st.walk ls).filter (fun f => f.code?.isNone) = st.walk (proseLines st.fence.isSome ls) := by
  induction st, ls using Reading.walk.induct with
  | case1 st => rw [proseLines, walk, filter_of_code? finish_code?]
  | case2 st raw rest language hfence hraw ih =>
    rw [walk_closing hfence hraw, filter_cons_of_pos rfl, ih, hfence, proseLines, if_pos hraw,
      walk_closing hfence hraw]
    rfl
  | case3 st raw rest language hfence hraw ih =>
    rw [walk_code hfence hraw, filter_cons_of_neg (by simp [code?]), ih, hfence,
      Option.isSome_some, proseLines_dropWhile, proseLines, if_neg hraw, if_pos rfl]
  | case4 st raw rest hfence line hline ih =>
    have hraw : isFence raw := isFence_trimRight.symm.trans hline
    rw [walk_opening hfence hline, filter_cons_of_pos rfl, ih, hfence, proseLines, if_pos hraw,
      walk_opening hfence hline]
    rfl
  | case5 st raw rest hfence line hline htable ih =>
    have hraw : ¬ isFence raw := fun h => hline (isFence_trimRight.trans h)
    rw [walk_table hfence hline htable, ih, hfence, Option.isSome_none, proseLines, if_neg hraw,
      if_neg Bool.false_ne_true, walk_table hfence hline htable, hfence]
  | case6 st raw rest hfence line hline htable out next hstep ih =>
    have hraw : ¬ isFence raw := fun h => hline (isFence_trimRight.trans h)
    have hnext : next = (st.tableClosed.step (trimRight raw) rest).2 := congrArg Prod.snd hstep.symm
    have hfenced : next.fence = none := by rw [hnext, step_fence, tableClosed_fence, hfence]
    rw [hfenced, Option.isSome_none] at ih
    rw [walk_step hfence hline htable, filter_append, filter_append,
      filter_of_code? closeTable_code?, filter_of_code? step_code?, ← hnext, ih, hfence,
      Option.isSome_none, proseLines, if_neg hraw, if_neg Bool.false_ne_true,
      walk_step hfence hline htable, step_proseLines, hnext]

end Reading

lemma fragments_eq_walk (content : String) :
  fragments content = Reading.walk {} (lines (trim content)) := by
  unfold fragments
  split
  case isFalse => rfl
  case isTrue h =>
    rw [String.isEmpty_iff.mp h, show lines (trim "") = [""] from rfl,
      Reading.walk_step rfl (by decide) (by decide), Reading.walk]
    rfl

/-- The fences of a documentation text open and close code in turn: the code on its page is what stands
after every other fence, one piece for all the lines up to the next fence, coloured in the language
that the fence names, and for the rest of the page these lines do not matter. -/
theorem documentLines_fences (config : Option Json) (content : String) :
  (fragments content).filterMap Fragment.code? = codeRuns (lines (trim content)) ∧
    (fragments content).filter (fun f => f.code?.isNone) =
      Reading.walk {} (proseLines false (lines (trim content))) ∧
    documentLines config content = (fragments content).mapM fun f =>
      f.code?.elim (pure f.plain) fun run => listing config run.1 (unlines run.2) := by
  refine ⟨?_, ?_, ?_⟩
  · rw [fragments_eq_walk, Reading.walk_code?]
    rfl
  · rw [fragments_eq_walk, Reading.walk_proseLines]
    rfl
  · unfold documentLines
    congr 1
    funext f
    cases f <;> rfl

end KeywordDocs.Markup
