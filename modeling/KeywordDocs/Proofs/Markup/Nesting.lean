import KeywordDocs.Markup.Block
import KeywordDocs.Proofs.Text.Rewriting

/-!
# Nesting of Lists and Fenced Code

What it means that the blocks of a page are balanced, and that the fragments of every text are. Fragments of
their own open and close lists and fenced code, so balance is a property of a sequence.
-/

namespace KeywordDocs.Markup

open Text
open List hiding drop

/-- What a fragment is as far as lists and fenced code are concerned. -/
inductive Part where
  | listOpen
  | listClose
  | codeOpen
  | codeClose
  | item
  | heading
  | paragraph
  | other
  deriving DecidableEq

/-- What is open at a place of a page. -/
structure Nest where
  inList : Bool := false
  inCode : Bool := false

variable (n : Nest)

/-- What is open after a part, if it may stand there. A list opens and closes outside of fenced code,
items are in a list, and headings and paragraphs are in nothing. -/
def Nest.step : Part → Option Nest
  | .listOpen => if n.inList || n.inCode then none else some { n with inList := true }
  | .listClose => if n.inList && !n.inCode then some { n with inList := false } else none
  | .codeOpen => if n.inCode then none else some { n with inCode := true }
  | .codeClose => if n.inCode then some { n with inCode := false } else none
  | .item => if n.inList && !n.inCode then some n else none
  | .heading | .paragraph => if n.inList || n.inCode then none else some n
  | .other => some n

/-- What is open after some parts, if all of them may stand where they stand. -/
def Nest.run (parts : List Part) : Option Nest := parts.foldlM Nest.step n

/-- Nothing is out of place and nothing stays open. -/
def BlockBalanced (parts : List Part) : Prop := Nest.run {} parts = some {}

def Fragment.part : Fragment → Part
  | .listOpen => .listOpen
  | .listClose => .listClose
  | .codeOpen _ => .codeOpen
  | .codeClose => .codeClose
  | .item _ => .item
  | .heading _ _ => .heading
  | .paragraph _ => .paragraph
  | .code _ _ | .rule | .gap | .table _ => .other

open Fragment (part)

lemma Nest.run_append (a b : List Part) : n.run (a ++ b) = (n.run a).bind fun m => m.run b := foldlM_append

lemma Nest.run_cons (p : Part) (ps : List Part) :
  n.run (p :: ps) = (n.step p).bind fun m => m.run ps :=
  foldlM_cons

namespace Reading

variable (st : Reading)

def nest : Nest where
  inList := st.inList
  inCode := st.fence.isSome

lemma closeTable_run (n : Nest) : n.run (st.closeTable.map part) = some n := by
  unfold closeTable
  split <;> rfl

lemma closeList_run (inCode : Bool) (h : inCode = false) :
  Nest.run ⟨st.inList, inCode⟩ (st.closeList.map part) = some ⟨false, inCode⟩ := by
  subst h
  unfold closeList
  cases st.inList <;> rfl

lemma tableClosed_nest : st.tableClosed.nest = st.nest := by
  unfold tableClosed
  split <;> rfl

lemma tableClosed_fence : st.tableClosed.fence = st.fence := by
  unfold tableClosed
  split <;> rfl

lemma gapAt_run (rest : List String) (n : Nest) : n.run ((st.gapAt rest).map part) = some n := by
  unfold gapAt
  dsimp only
  split <;> rfl

lemma step_nest (line : String) (rest : List String) (hfence : st.fence = none) :
  st.nest.run ((st.step line rest).1.map part) = some (st.step line rest).2.nest := by
  have hnest : st.nest = ⟨st.inList, false⟩ := by rw [nest, hfence]; rfl
  rw [hnest]
  -- A heading and a paragraph close an open list first; an item opens one if none is open.
  unfold step
  cases shape line with
  | heading level text =>
    rw [map_append, Nest.run_append, closeList_run st false rfl]
    simp only [nest, hfence]
    rfl
  | rule =>
    simp only [nest, hfence]
    rfl
  | item text =>
    simp only [nest, hfence]
    cases st.inList <;> rfl
  | blank =>
    simp only [nest, hfence]
    exact gapAt_run st rest _
  | paragraph text =>
    rw [map_append, Nest.run_append, closeList_run st false rfl]
    simp only [nest, hfence]
    rfl

lemma finish_nest : st.nest.run (st.finish.map part) = some {} := by
  unfold finish
  rw [map_append, map_append, Nest.run_append, Nest.run_append]
  -- Fenced code is closed before the list around it.
  have hcode : st.nest.run ((if st.fence.isSome then [Fragment.codeClose] else []).map
      part) = some ⟨st.inList, false⟩ := by
    unfold nest
    cases st.fence <;> rfl
  rw [hcode, Option.bind_some, closeTable_run, Option.bind_some]
  exact closeList_run st false rfl

variable {st} {raw language : String} {rest : List String}

lemma walk_closing (hfence : st.fence = some language) (hraw : isFence raw) :
  st.walk (raw :: rest) = .codeClose :: { st with fence := none }.walk rest := by
  rw [walk, hfence]
  exact if_pos hraw

lemma walk_code (hfence : st.fence = some language) (hraw : ¬ isFence raw) :
  st.walk (raw :: rest) = .code language (raw :: rest.takeWhile fun l => !isFence l) ::
    st.walk (rest.dropWhile fun l => !isFence l) := by
  rw [walk, hfence]
  exact if_neg hraw

lemma walk_opening (hfence : st.fence = none) (hline : isFence (trimRight raw)) :
  st.walk (raw :: rest) = .codeOpen (fenceLanguage (trimRight raw)) ::
    { st with fence := some (fenceLanguage (trimRight raw)) }.walk rest := by
  rw [walk, hfence]
  exact if_pos hline

lemma walk_table (hfence : st.fence = none) (hline : ¬ isFence (trimRight raw))
  (htable : isTableLine (trimRight raw)) :
  st.walk (raw :: rest) = { st with table := some (st.table.getD [] ++ [trimRight raw]) }.walk rest := by
  rw [walk, hfence]
  exact (if_neg hline).trans (if_pos htable)

lemma walk_step (hfence : st.fence = none) (hline : ¬ isFence (trimRight raw))
  (htable : ¬ isTableLine (trimRight raw)) :
  st.walk (raw :: rest) = st.closeTable ++ (st.tableClosed.step (trimRight raw) rest).1 ++
    (st.tableClosed.step (trimRight raw) rest).2.walk rest := by
  rw [walk, hfence]
  dsimp only
  rw [if_neg hline, if_neg htable]

lemma walk_nest (st : Reading) (lines : List String) :
  st.nest.run ((st.walk lines).map part) = some {} := by
  -- The cases are those of the walk: the end, two kinds of lines in a fence, and a fence, a table line
  -- or any other line outside of one.
  induction st, lines using Reading.walk.induct with
  | case1 st =>
    rw [walk]
    exact finish_nest st
  | case2 st raw rest language hfence hraw ih =>
    have hclose : st.nest.step .codeClose = some { st with fence := none }.nest := by
      simp only [nest, hfence]
      rfl
    rw [walk_closing hfence hraw, map_cons, Nest.run_cons, part, hclose]
    exact ih
  | case3 st raw rest language hfence hraw ih =>
    rw [walk_code hfence hraw, map_cons, Nest.run_cons]
    exact ih
  | case4 st raw rest hfence line hline ih =>
    have hopen : st.nest.step .codeOpen =
        some { st with fence := some (fenceLanguage (trimRight raw)) }.nest := by
      simp only [nest, hfence]
      rfl
    rw [walk_opening hfence hline, map_cons, Nest.run_cons, part, hopen]
    exact ih
  | case5 st raw rest hfence line hline htable ih =>
    rw [walk_table hfence hline htable]
    exact ih
  | case6 st raw rest hfence line hline htable out next hstep ih =>
    have hnext := step_nest st.tableClosed (trimRight raw) rest
      (by rw [tableClosed_fence, hfence])
    rw [tableClosed_nest] at hnext
    rw [walk_step hfence hline htable, map_append, map_append, Nest.run_append,
      Nest.run_append, closeTable_run, Option.bind_some, hnext, Option.bind_some]
    simp only [line] at hstep
    rw [hstep]
    exact ih

end Reading

def Fragment.WellFormed : Fragment → Prop
  | .heading level _ => 1 ≤ level ∧ level ≤ 6
  | .codeOpen language => '\n' ∉ language.toList
  | _ => True

lemma shape_heading {line : String} {level : Nat} {text : String}
  (h : shape line = .heading level text) : 1 ≤ level ∧ level ≤ 6 := by
  unfold shape at h
  dsimp only at h
  split at h
  case h_1 level' text' hheading =>
    cases h
    unfold heading? at hheading
    dsimp only at hheading
    split at hheading
    case isTrue hlevel =>
      split at hheading
      · cases hheading
        exact hlevel
      · cases hheading
    case isFalse => cases hheading
  case h_2 =>
    split at h
    · cases h
    · split at h <;> cases h

lemma fenceLanguage_newline {line : String} (h : '\n' ∉ line.toList) :
  '\n' ∉ (fenceLanguage line).toList := by
  unfold fenceLanguage
  dsimp only
  split
  · decide
  · intro hmem
    rw [trim, String.toList_ofList, drop, String.toList_ofList] at hmem
    exact h ((drop_suffix _ _).subset (trimChars_subset _ hmem))

namespace Reading

variable (st : Reading)

lemma closeList_wellFormed : ∀ f ∈ st.closeList, f.WellFormed := by
  unfold closeList
  split
  · exact forall_mem_singleton.mpr trivial
  · exact forall_mem_nil _

lemma closeTable_wellFormed : ∀ f ∈ st.closeTable, f.WellFormed := by
  unfold closeTable
  split
  · exact forall_mem_singleton.mpr trivial
  · exact forall_mem_nil _

lemma gapAt_wellFormed (rest : List String) : ∀ f ∈ st.gapAt rest, f.WellFormed := by
  unfold gapAt
  dsimp only
  split
  · exact forall_mem_singleton.mpr trivial
  · exact forall_mem_nil _

lemma step_wellFormed (line : String) (rest : List String) :
  ∀ f ∈ (st.step line rest).1, f.WellFormed := by
  unfold step
  cases hshape : shape line with
  | heading level text =>
    have hheading : (Fragment.heading level text).WellFormed := shape_heading hshape
    exact forall_mem_append.mpr
      ⟨closeList_wellFormed st, forall_mem_singleton.mpr hheading⟩
  | rule => exact forall_mem_singleton.mpr trivial
  | item text =>
    refine forall_mem_append.mpr ⟨?_, forall_mem_singleton.mpr trivial⟩
    split
    · exact forall_mem_nil _
    · exact forall_mem_singleton.mpr trivial
  | blank => exact gapAt_wellFormed st rest
  | paragraph text =>
    exact forall_mem_append.mpr
      ⟨closeList_wellFormed st, forall_mem_singleton.mpr trivial⟩

lemma finish_wellFormed : ∀ f ∈ st.finish, f.WellFormed := by
  unfold finish
  rw [forall_mem_append, forall_mem_append]
  refine ⟨⟨?_, closeTable_wellFormed st⟩, closeList_wellFormed st⟩
  split
  · exact forall_mem_singleton.mpr trivial
  · exact forall_mem_nil _

lemma walk_wellFormed (lines : List String)
  (hlines : ∀ line ∈ lines, '\n' ∉ line.toList) : ∀ f ∈ st.walk lines, f.WellFormed := by
  induction st, lines using Reading.walk.induct with
  | case1 st =>
    rw [walk]
    exact finish_wellFormed st
  | case2 st raw rest language hfence hraw ih =>
    rw [walk_closing hfence hraw, forall_mem_cons]
    exact ⟨trivial, ih fun line hline => hlines line (mem_cons_of_mem raw hline)⟩
  | case3 st raw rest language hfence hraw ih =>
    rw [walk_code hfence hraw, forall_mem_cons]
    refine ⟨trivial, ih fun line hline => hlines line (mem_cons_of_mem raw ?_)⟩
    exact (dropWhile_suffix _).subset hline
  | case4 st raw rest hfence line hline ih =>
    rw [walk_opening hfence hline, forall_mem_cons]
    refine ⟨fenceLanguage_newline fun hmem => ?_,
      ih fun line hline => hlines line (mem_cons_of_mem raw hline)⟩
    rw [trimRight, String.toList_ofList] at hmem
    exact hlines raw mem_cons_self (dropEndWhile_subset isBlank _ hmem)
  | case5 st raw rest hfence line hline htable ih =>
    rw [walk_table hfence hline htable]
    exact ih fun line hline => hlines line (mem_cons_of_mem raw hline)
  | case6 st raw rest hfence line hline htable out next hstep ih =>
    rw [walk_step hfence hline htable, forall_mem_append, forall_mem_append]
    refine ⟨⟨closeTable_wellFormed st, step_wellFormed _ _ _⟩, ?_⟩
    simp only [line] at hstep
    rw [hstep]
    exact ih fun line hline => hlines line (mem_cons_of_mem raw hline)

end Reading

lemma fragments_wellFormed (content : String) : ∀ f ∈ fragments content, f.WellFormed := by
  unfold fragments
  split
  · intro f hf
    cases hf
  · refine Reading.walk_wellFormed {} _ fun line hline => ?_
    rcases mem_map.mp hline with ⟨part, hpart, rfl⟩
    rw [String.toList_ofList]
    exact not_mem_splitAtChar hpart

lemma fragments_balanced (content : String) :
  BlockBalanced ((fragments content).map part) := by
  unfold fragments
  split
  · rfl
  · exact Reading.walk_nest {} _

end KeywordDocs.Markup
