import KeywordDocs.Proofs.Markup.Table
import KeywordDocs.Proofs.Page.Stripping

/-!
# Tables in Markdown

A table whose cells are prose is the same in Markdown as in the documentation, except that the line that
separates its head gets one column for every cell of the head (`toMarkdown_table`).
-/

namespace KeywordDocs.Page

open Text Markup List

variable {cell : String} {row : List String}

/-- Cells of prose: letters, digits, punctuation and spaces, but no white space at an end. -/
structure Worded (cell : String) : Prop where
  ne_nil : cell.toList ≠ []
  chars : ∀ c ∈ cell.toList, isProseChar c
  tight : Tight cell.toList

instance : Decidable (Worded cell) :=
  decidable_of_iff (cell.toList ≠ [] ∧ (∀ c ∈ cell.toList, isProseChar c) ∧
      (∀ c ∈ cell.toList.head?, isBlank c = false) ∧ ∀ c ∈ cell.toList.getLast?, isBlank c = false)
    ⟨fun h => ⟨h.1, h.2.1, h.2.2.1, h.2.2.2⟩, fun h => ⟨h.ne_nil, h.chars, h.tight.head, h.tight.last⟩⟩

lemma Worded.not_mem {c : Char} (h : Worded cell) (hc : isProseChar c = false) : c ∉ cell.toList :=
  fun hmem => by
    rw [h.chars c hmem] at hc
    cases hc

lemma Worded.inline_eq (h : Worded cell) : Markup.inline cell = cell := by
  have hmarks : ∀ c ∈ markChars, isProseChar c = false := by decide
  exact inline_eq_self fun c hc => h.not_mem (hmarks c (contains_iff_mem.mp hc))

lemma barred_toList (hne : row ≠ []) :
  (barred row).toList = '|' :: row.flatMap fun cell => ' ' :: cell.toList ++ [' ', '|'] := by
  have hjoin : ∀ row : List String, row ≠ [] →
      ' ' :: List.intercalate " | ".toList (row.map String.toList) ++ [' ', '|'] =
        row.flatMap fun cell => ' ' :: cell.toList ++ [' ', '|'] := by
    intro row hne
    induction row with
    | nil => cases hne rfl
    | cons cell row ih =>
      cases row with
      | nil => simp
      | cons next row =>
        rw [flatMap_cons, ← ih (cons_ne_nil next row)]
        simp [intercalate_cons_cons]
  rw [barred, String.toList_append, String.toList_append, toList_join, ← hjoin row hne]
  simp

lemma cells_barred (hne : row ≠ []) (h : ∀ cell ∈ row, Worded cell) : cells (barred row) = row := by
  have hsplit : ∀ row : List String, (∀ cell ∈ row, Worded cell) →
      splitAtChar '|' (row.flatMap fun cell => ' ' :: cell.toList ++ [' ', '|']) =
        row.map (fun cell => [' '] ++ (cell.toList ++ [' '])) ++ [[]] := by
    intro row h
    induction row with
    | nil => rfl
    | cons cell row ih =>
      rcases forall_mem_cons.mp h with ⟨hcell, h⟩
      have hbar : '|' ∉ [' '] ++ (cell.toList ++ [' ']) := by
        simp [hcell.not_mem (show isProseChar '|' = false by decide)]
      have hparts := splitAtChar_append_cons '|' ([' '] ++ (cell.toList ++ [' ']))
        (row.flatMap fun cell => ' ' :: cell.toList ++ [' ', '|'])
      rw [splitAtChar_of_not_mem hbar, ih h] at hparts
      simpa using hparts
  have hcell : ∀ cell ∈ row, String.ofList (trimChars ([' '] ++ (cell.toList ++ [' ']))) = cell := by
    intro cell hcell
    rw [(h cell hcell).tight.trimChars_around (h cell hcell).ne_nil (by decide) (by decide),
      String.ofList_toList]
  rw [cells, barred_toList hne, show splitAtChar '|' ('|' :: _) = [] :: splitAtChar '|' _ from rfl,
    tail_cons, hsplit row h, dropLast_concat, map_map]
  exact (map_congr_left hcell).trans (map_id row)

lemma isSeparator_barred (hne : row ≠ []) (h : ∀ cell ∈ row, Worded cell) :
  isSeparator (barred row) = false := by
  rcases exists_cons_of_ne_nil hne with ⟨cell, rest, rfl⟩
  have hcell := h cell mem_cons_self
  rcases exists_cons_of_ne_nil hcell.ne_nil with ⟨c, cs, hcs⟩
  have hblank := hcell.tight.head c (by rw [hcs]; rfl)
  have hdash : c ≠ '-' ∧ c ≠ '|' := by
    have hchar := hcell.chars c (by rw [hcs]; exact mem_cons_self)
    constructor <;> rintro rfl <;> revert hchar <;> decide
  have hall : (barred (cell :: rest)).toList.all isRuling = false := by
    rw [barred_toList hne, flatMap_cons, hcs]
    simp [isRuling, hblank, hdash]
  rw [isSeparator, hall, Bool.and_false, Bool.false_and]

variable {line : String} {ls : List String} {start cs : List Char}

lemma stripMarkup_eq_self (hlt : '<' ∉ cs) (hand : '&' ∉ cs) : stripMarkup cs = cs := by
  have hentities : ∀ e ∈ markdownEntities, '&' ∈ e.1.toList := by decide
  have hfree : TagFree cs := fun rest hrest => tag_needs none rest fun hp =>
    hlt (hrest.subset (hp.subset mem_cons_self))
  rw [stripMarkup, decode_eq_self (by decide) fun e he hin => hand (hin.subset (hentities e he)),
    unspanned_of_tagFree hfree]

lemma beforeFirst_append {closings : List (List Char)} (hmark : ∀ d ∈ closings, d.head? = some '<')
  (hcs : '<' ∉ cs) (rest : List Char) : beforeFirst closings (cs ++ rest) =
    (beforeFirst closings rest).map fun (body, n) => (cs ++ body, n) := by
  induction cs with
  | nil => exact (Option.map_id_apply).symm
  | cons c cs ih =>
    have hnone : closings.find? (fun d => d.isPrefixOf (c :: (cs ++ rest))) = none := by
      refine find?_eq_none.mpr fun d hd hp => hcs ?_
      rcases head?_eq_some_iff.mp (hmark d hd) with ⟨more, rfl⟩
      exact (cons_prefix_cons.mp (List.isPrefixOf_iff_prefix.mp hp)).1 ▸ mem_cons_self
    rw [cons_append, beforeFirst, hnone]
    dsimp only
    rw [ih fun h => hcs (mem_cons_of_mem c h), Option.map_map]
    rfl

lemma cellContent_yields (head : Bool) (h : Worded cell) :
  Yields cellContent (cellText head cell) [cell.toList] := by
  have htag : ∀ x, cellTag? ((rowFrame head).opening.toList ++ x) = some (x, 4) := by
    cases head <;> exact fun _ => rfl
  have hclosing : ∀ rest, beforeFirst ["</td>".toList, "</th>".toList]
      ((rowFrame head).closing.toList ++ rest) = some ([], 5) := by
    cases head <;> exact fun _ => rfl
  have hlength : (rowFrame head).opening.toList.length = 4 ∧ (rowFrame head).closing.toList.length = 5 := by
    cases head <;> decide
  refine .found (fun _ _ _ => rfl) (by cases head <;> exact cons_ne_nil _ _) fun rest => ?_
  rw [cellContent, cellText, h.inline_eq, append_assoc, append_assoc, htag, Option.bind_eq_bind,
    Option.bind_some]
  dsimp only
  rw [beforeFirst_append (by decide) (h.not_mem (by decide)), hclosing, Option.map_some, Option.bind_some]
  dsimp only
  rw [append_nil, stripMarkup_eq_self (h.not_mem (by decide)) (h.not_mem (by decide)),
    h.tight.trimChars_eq, length_append, length_append, hlength.1, hlength.2, Nat.add_assoc]
  rfl

lemma tableRows_tableBody (h : ∀ x ∈ shownLines line ls, ∀ cell ∈ cells x.2, Worded cell) :
  tableRows (tableBody line ls) =
    ((shownLines line ls).map fun x => cells x.2).filter fun row => !row.isEmpty := by
  have hcells : ∀ x ∈ shownLines line ls,
      (finds cellContent (rowBody x.1 x.2)).map String.ofList = cells x.2 := by
    intro x hx
    have hrow := rowBody_yields (.of_scan (fun _ _ _ => rfl) fun _ => rfl) fun cell hcell =>
      cellContent_yields x.1 (h x hx cell hcell)
    rw [hrow.eq, map_map]
    exact (map_congr_left fun cell _ => String.ofList_toList).trans (map_id _)
  -- Rows are cut out first, so `<thead>`, which begins like a cell, is never read as one.
  rw [tableRows, (tableBody_rows line ls).eq, map_map]
  exact congrArg _ (map_congr_left hcells)

def framePieces : List String := ["<tr>", "</tr>", "", "<thead>", "\n", "</thead><tbody>\n", "</tbody>"]

lemma rowFrame_mem (head : Bool) :
  (rowFrame head).before ∈ framePieces ∧ (rowFrame head).after ∈ framePieces := by
  cases head <;> decide

def isForeign (start : List Char) : Bool :=
  start.head? == some '<' && (rowPieces.all (fun s => noEnd start s.toList) &&
    framePieces.all fun s => noEnd start s.toList)

lemma tableBody_shuns (hstart : isForeign start)
  (h : ∀ x ∈ shownLines line ls, ∀ cell ∈ cells x.2, Worded cell) :
  Shuns start (tableBody line ls) := by
  rcases Bool.and_eq_true_iff.mp hstart with ⟨hmark, hpieces⟩
  rcases Bool.and_eq_true_iff.mp hpieces with ⟨hrow, hframe⟩
  have hpiece : ∀ s ∈ framePieces, Shuns start s.toList := fun s hs => .of_noEnd (all_eq_true.mp hframe s hs)
  have hfeed : Shuns start ['\n'] := hpiece "\n" (by decide)
  refine hfeed.append (.append (.flatMap fun x hx => ?_) (hpiece "</tbody>" (by decide)))
  have hbody : Shuns start (rowBody x.1 x.2) := rowBody_shuns x.1 hrow fun cell hcell => by
    rw [(h x hx cell hcell).inline_eq]
    rcases head?_eq_some_iff.mp (beq_iff_eq.mp hmark) with ⟨more, rfl⟩
    exact .of_not_mem ((h x hx cell hcell).not_mem (by decide))
  have htags := (hpiece "<tr>" (by decide)).append (hbody.append (hpiece "</tr>" (by decide)))
  exact ((hpiece _ (rowFrame_mem x.1).1).append htags).append (hpiece _ (rowFrame_mem x.1).2)

variable {c : Char}

def isTableChar (c : Char) : Bool := isProseChar c || ['|', '-'].contains c

structure BarredLine (line : String) : Prop where
  head : line.toList.head? = some '|'
  last : line.toList.getLast? = some '|'
  chars : ∀ c ∈ line.toList, isTableChar c

lemma barredLine (hne : row ≠ []) (h : ∀ cell ∈ row, ∀ c ∈ cell.toList, isTableChar c) :
  BarredLine (barred row) where
  head := by rw [barred_toList hne]; rfl
  last := by rw [barred, String.toList_append, getLast?_append]; rfl
  chars := by
    have hends : ∀ c ∈ [' ', '|'], isTableChar c := by decide
    rw [barred_toList hne]
    refine forall_mem_cons.mpr ⟨by decide, fun c hc => ?_⟩
    rcases mem_flatMap.mp hc with ⟨cell, hcell, hc⟩
    rcases mem_cons.mp hc with rfl | hc
    · decide
    · exact (mem_append.mp hc).elim (h cell hcell c) (hends c)

lemma BarredLine.not_mem (h : BarredLine line) (hc : isTableChar c = false) : c ∉ line.toList :=
  fun hmem => by
    rw [h.chars c hmem] at hc
    cases hc

lemma not_mem_lines (hc : isTableChar c = false) (hfeed : c ≠ '\n')
  (h : ∀ l ∈ line :: ls, BarredLine l) : c ∉ (unlines (line :: ls)).toList ++ ['\n', '\n'] := by
  have hline : ∀ l ∈ line :: ls, c ∉ l.toList := fun l hl => (h l hl).not_mem hc
  rw [toList_unlines_cons]
  simp only [mem_append, mem_flatMap, mem_cons, not_mem_nil, not_or, not_exists, not_and]
  exact ⟨⟨hline line mem_cons_self, fun l hl => ⟨hfeed, hline l (mem_cons_of_mem _ hl)⟩⟩, hfeed, hfeed, id⟩

lemma emptyLines_needs : Needs emptyLines ['\n', '\n', '\n'] := by
  intro b cs h
  rw [emptyLines_eq, if_neg]
  intro hrun
  have htake : cs.takeWhile (· = '\n') = List.replicate (feeds cs) '\n' :=
    eq_replicate_iff.mpr ⟨rfl, fun c hc => by simpa using mem_takeWhile_imp hc⟩
  have hthree : List.replicate 3 '\n' <+: List.replicate (feeds cs) '\n' :=
    ⟨List.replicate (feeds cs - 3) '\n', by rw [← replicate_add, Nat.add_sub_cancel' hrun]⟩
  exact h (hthree.trans (htake ▸ takeWhile_prefix _))

lemma trimChars_lines (h : ∀ l ∈ line :: ls, BarredLine l) :
  trimChars (replaceFinds emptyLines ((unlines (line :: ls)).toList ++ ['\n', '\n'])) =
    (unlines (line :: ls)).toList := by
  rcases forall_mem_cons.mp h with ⟨hline, hls⟩
  have hfeed : ∀ l ∈ line :: ls, '\n' ∉ l.toList := fun l hl => (h l hl).not_mem (by decide)
  have hturns : Turns emptyLines (unlines (line :: ls)).toList (unlines (line :: ls)).toList := by
    refine .of_shuns emptyLines_blind emptyLines_needs ?_
    rw [toList_unlines_cons]
    refine (Shuns.of_not_mem (hfeed line mem_cons_self)).append (.flatMap fun l hl => ?_)
    rcases head?_eq_some_iff.mp (hls l hl).head with ⟨cs, hcs⟩
    have hnot := hfeed l (mem_cons_of_mem _ hl)
    have hfront : Shuns ['\n', '\n', '\n'] ['\n', '|'] := .of_noEnd (by decide)
    rw [hcs] at hnot ⊢
    exact hfront.append (.of_not_mem fun hmem => hnot (mem_cons_of_mem _ hmem))
  have hhead : (unlines (line :: ls)).toList.head? = some '|' := by
    rw [toList_unlines_cons, head?_append, hline.head, Option.some_or]
  have hlast : (unlines (line :: ls)).toList.getLast? = some '|' := by
    rw [toList_unlines_cons]
    rcases eq_nil_or_concat ls with rfl | ⟨front, l, rfl⟩
    · simpa using hline.last
    · simp [getLast?_append, getLast?_cons, (hls l (by simp)).last]
  have hne : (unlines (line :: ls)).toList ≠ [] := fun hnil => by
    rw [hnil] at hhead
    cases hhead
  have hbar : ∀ c, c ∈ some '|' → isBlank c = false := by rintro c ⟨⟩; decide
  rw [hturns, show replaceFinds emptyLines ['\n', '\n'] = ['\n', '\n'] from rfl]
  exact (Tight.mk (hhead ▸ hbar) (hlast ▸ hbar)).trimChars_around hne (forall_mem_nil _) (by decide)

lemma tableElement_turns {body : List Char} (h : Shuns "</table>".toList body) :
  Turns tableElement ("<table class=\"doc-table\">".toList ++ (body ++ "</table>".toList))
    (tableToMarkdown body) := by
  have hopening : ∀ x, openTag? "<table".toList ("<table class=\"doc-table\">".toList ++ x) =
      some (x, "<table class=\"doc-table\">".toList.length) := fun _ => rfl
  refine .found (fun _ _ _ => rfl) (cons_ne_nil _ _) fun rest => ?_
  rw [tableElement, append_assoc, append_assoc, hopening, Option.bind_eq_bind, Option.bind_some]
  dsimp only
  rw [splitAtFirst_append (by decide) h, Option.bind_eq_bind, Option.bind_some, length_append,
    length_append, Nat.add_assoc]
  rfl

lemma elements_foreign : ∀ r ∈ elementRecognisers.take 9, ∃ start, Blind r ∧ Needs r start ∧
  isForeign start ∧
    ["<table class=\"doc-table\">", "</table>"].all (fun s => noEnd start s.toList) := by
  simp only [elementRecognisers, take_succ_cons, take_zero, forall_mem_cons]
  exact ⟨⟨_, fun _ _ _ => rfl, codeElement_needs, by decide⟩,
    ⟨_, enclosedLine_blind, enclosedLine_needs, by decide⟩,
    ⟨_, enclosedLine_blind, enclosedLine_needs, by decide⟩,
    ⟨_, enclosedLine_blind, enclosedLine_needs, by decide⟩,
    ⟨_, enclosedLine_blind, enclosedLine_needs, by decide⟩,
    ⟨_, enclosed_blind, enclosed_needs, by decide⟩, ⟨_, enclosed_blind, enclosed_needs, by decide⟩,
    ⟨_, enclosed_blind, enclosed_needs, by decide⟩, ⟨_, enclosed_blind, enclosed_needs, by decide⟩,
    forall_mem_nil _⟩

lemma elements_table (h : ∀ x ∈ shownLines line ls, ∀ cell ∈ cells x.2, Worded cell) :
  elementRecognisers.foldl (fun cs r => replaceFinds r cs) (table (line :: ls)).toList =
    (elementRecognisers.drop 10).foldl (fun cs r => replaceFinds r cs)
      (tableToMarkdown (tableBody line ls)) := by
  have hbefore : (elementRecognisers.take 9).foldl (fun cs r => replaceFinds r cs)
      (table (line :: ls)).toList = (table (line :: ls)).toList := by
    refine foldl_replaceFinds fun r hr => ?_
    rcases elements_foreign r hr with ⟨start, hblind, hneeds, hstart, hends⟩
    rw [table_toList]
    exact (Turns.of_shuns hblind hneeds ((Shuns.of_noEnd (all_eq_true.mp hends _ (by decide))).append
      ((tableBody_shuns hstart h).append (.of_noEnd (all_eq_true.mp hends _ (by decide)))))).eq
  have htable := (tableElement_turns (tableBody_shuns (by decide) h)).eq
  rw [← table_toList] at htable
  rw [show elementRecognisers =
      elementRecognisers.take 9 ++ tableElement :: elementRecognisers.drop 10 from rfl,
    foldl_append, hbefore, foldl_cons, htable]
  rfl

/-- A table whose cells are prose comes back from its markup: the head, a line that separates, and the
rows. -/
theorem toMarkdown_table {header : List String} {rows : List (List String)} {separator : String}
  (h : ∀ row ∈ header :: rows, row ≠ [] ∧ ∀ cell ∈ row, Worded cell)
  (hseparator : isSeparator separator = true) :
  toMarkdown (table (barred header :: separator :: rows.map barred)) =
    unlines (barred header :: barred (header.map fun _ => "---") :: rows.map barred) := by
  have hbarred : ∀ row ∈ header :: rows, isSeparator (barred row) = false := fun row hrow =>
    isSeparator_barred (h row hrow).1 (h row hrow).2
  have hcells : ∀ row ∈ header :: rows, cells (barred row) = row := fun row hrow =>
    cells_barred (h row hrow).1 (h row hrow).2
  have hread : (shownLines (barred header) (separator :: rows.map barred)).map (fun x => cells x.2) =
      header :: rows := by
    have hrest : (rows.map barred).filter (fun l => !isSeparator l) = rows.map barred := by
      refine filter_eq_self.mpr (forall_mem_map.mpr fun row hrow => ?_)
      rw [hbarred row (mem_cons_of_mem _ hrow), Bool.not_false]
    have hshown : (barred header :: separator :: rows.map barred).filter (fun l => !isSeparator l) =
        (header :: rows).map barred := by
      simp [hbarred header mem_cons_self, hseparator, hrest]
    rw [map_shownLines, hshown, map_map]
    exact (map_congr_left hcells).trans (map_id _)
  have hworded : ∀ x ∈ shownLines (barred header) (separator :: rows.map barred),
      ∀ cell ∈ cells x.2, Worded cell := fun x hx =>
    (h _ (hread ▸ mem_map_of_mem hx)).2
  have hmarkdown : tableToMarkdown (tableBody (barred header) (separator :: rows.map barred)) =
      (unlines (barred header :: barred (header.map fun _ => "---") :: rows.map barred)).toList ++
        ['\n', '\n'] := by
    have hkept : (header :: rows).filter (fun row => !row.isEmpty) = header :: rows :=
      filter_eq_self.mpr fun row hrow => by simpa using (h row hrow).1
    rw [tableToMarkdown, tableRows_tableBody hworded, hread, hkept]
    exact String.toList_append
  have hlines : ∀ l ∈ barred header :: barred (header.map fun _ => "---") :: rows.map barred,
      BarredLine l := by
    have hrow : ∀ row ∈ header :: rows, BarredLine (barred row) := fun row hrow =>
      barredLine (h row hrow).1 fun cell hcell c hc => by
        rw [isTableChar, ((h row hrow).2 cell hcell).chars c hc, Bool.true_or]
    refine forall_mem_cons.mpr ⟨hrow header mem_cons_self, forall_mem_cons.mpr ⟨?_, ?_⟩⟩
    · refine barredLine (by simpa using (h header mem_cons_self).1) (forall_mem_map.mpr fun _ _ => ?_)
      decide
    · exact forall_mem_map.mpr fun row hmem => hrow row (mem_cons_of_mem _ hmem)
  have hlt := not_mem_lines (c := '<') (by decide) (by decide) hlines
  have hand := not_mem_lines (c := '&') (by decide) (by decide) hlines
  have hafter : ∀ r ∈ elementRecognisers.drop 10, replaceFinds r _ = _ :=
    forall_mem_cons.mpr ⟨replaceFinds_of_not_mem linkElement_needs hlt,
      forall_mem_cons.mpr ⟨replaceFinds_of_not_mem headingElement_needs hlt, forall_mem_nil _⟩⟩
  rw [toMarkdown, elements_table hworded, hmarkdown, foldl_replaceFinds hafter,
    stripMarkup_eq_self hlt hand, trimChars_lines hlines, String.ofList_toList]

theorem toMarkdown_table_names :
  toMarkdown (table ["| Name | Default |", "|---|", "| timeout | 5 seconds |"]) =
    "| Name | Default |\n| --- | --- |\n| timeout | 5 seconds |" := by
  have h : ∀ row ∈ [["Name", "Default"], ["timeout", "5 seconds"]],
      row ≠ [] ∧ ∀ cell ∈ row, Worded cell := by
    simp only [forall_mem_cons]
    decide +kernel
  have hlines : barred ["Name", "Default"] = "| Name | Default |" ∧
      [["timeout", "5 seconds"]].map barred = ["| timeout | 5 seconds |"] := by decide +kernel
  have htable := toMarkdown_table h (show isSeparator "|---|" by decide +kernel)
  rw [hlines.1, hlines.2] at htable
  exact htable.trans (by decide +kernel)

end KeywordDocs.Page
