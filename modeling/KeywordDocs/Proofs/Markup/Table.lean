import KeywordDocs.Proofs.Markup.Crossing

/-!
# Tables as They Are Read

What a reader finds in a table, which is written line by line with the first line as its head: the rows and
their cells (`shownRows`), and the tags in order (`tableTags`).
-/

namespace KeywordDocs.Markup

open Text List

variable {a b : List Char}

def tableStarts : List (List Char) := ["<t".toList, "</t".toList]

def Tableless (cs : List Char) : Prop := ∀ start ∈ tableStarts, Shuns start cs

lemma Tableless.append (ha : Tableless a) (hb : Tableless b) : Tableless (a ++ b) :=
  fun start h => (ha start h).append (hb start h)

lemma Tableless.flatMap {α : Type} {l : List α} {f : α → List Char}
  (h : ∀ x ∈ l, Tableless (f x)) : Tableless (l.flatMap f) :=
  fun start hstart => .flatMap fun x hx => h x hx start hstart

lemma Tableless.of_noEnd (h : tableStarts.all (noEnd · a)) : Tableless a :=
  fun start hstart => .of_noEnd (all_eq_true.mp h start hstart)

lemma inline_tableless (s : String) : Tableless (inline s).toList := by
  have hsign : ∀ g : Sign, Tableless g.text := by
    intro g
    cases g with
    | char c =>
      rcases written_entities c with ⟨e, he, -, htext⟩ | ⟨hc, htext⟩
      · have hall : ∀ e ∈ entities, tableStarts.all (noEnd · e.2.toList) := by decide
        rw [Sign.text, htext]
        exact .of_noEnd (hall e he)
      · have hlt : '<' ∉ [c] := fun h => hc (mem_singleton.mp h ▸ by decide)
        rw [Sign.text, htext]
        intro start hstart
        rcases mem_cons.mp hstart with rfl | hstart
        · exact .of_not_mem hlt
        · exact mem_singleton.mp hstart ▸ .of_not_mem hlt
    | opening m =>
      have hall : ∀ e ∈ lineMarks,
          tableStarts.all (noEnd · ("<" ++ e.element ++ ">").toList) := by decide
      exact .of_noEnd (hall m.1 m.2)
    | closing m =>
      have hall : ∀ e ∈ lineMarks,
          tableStarts.all (noEnd · ("</" ++ e.element ++ ">").toList) := by decide
      exact .of_noEnd (hall m.1 m.2)
  rcases inline_reading s with ⟨nodes, hnodes⟩
  rw [← hnodes.text]
  refine .flatMap fun node _ => ?_
  cases node with
  | sign g => exact hsign g
  | linkStart target =>
    exact ((Tableless.of_noEnd (by decide)).append (.flatMap fun g _ => hsign g)).append
      (.of_noEnd (by decide))
  | linkEnd target => exact .of_noEnd (a := "</a>".toList) (by decide)

/-- The cells of a row, in its head or in its body. -/
def cellElement : Recogniser (List Char) := fun b cs =>
  enclosed "<th>" "</th>" id b cs <|> enclosed "<td>" "</td>" id b cs

/-- The rows of a table, each with the content of its cells. -/
def shownRows (html : String) : List (List String) :=
  (finds (enclosed "<tr>" "</tr>" id) html.toList).map fun row => (finds cellElement row).map String.ofList

/-- The element of a table that a tag is about, after its bracket. -/
def tableName? (cs : List Char) : Option String :=
  ["table", "thead", "tbody", "tr", "th", "td"].find? fun x => x.toList = cs.takeWhile Char.isAlpha

def tableTag : Recogniser Edge := fun _ cs =>
  match cs with
  | '<' :: '/' :: cs => (tableName? cs).map fun x => (.stop x, x.length + 2)
  | '<' :: cs => (tableName? cs).map fun x => (.start x, x.length + 1)
  | _ => none

/-- Where the elements of a table begin and end. -/
def tableTags (html : String) : List Edge := finds tableTag html.toList

lemma tableTag_blind : Blind tableTag := fun _ _ _ => rfl

lemma Tableless.yields {a : List Char} (h : Tableless a) : Yields tableTag a [] := by
  have hname : ∀ cs, ¬ ['t'] <+: cs → tableName? cs = none := by
    intro cs hcs
    have hall : ∀ x ∈ ["table", "thead", "tbody", "tr", "th", "td"], ['t'] <+: x.toList := by decide
    refine find?_eq_none.mpr fun x hx hname => hcs ((hall x hx).trans ?_)
    rw [of_decide_eq_true hname]
    exact takeWhile_prefix _
  refine .none tableTag_blind fun s hs hne rest => ?_
  have hopening := h _ mem_cons_self s hs hne rest
  have hclosing := h _ (mem_cons_of_mem _ mem_cons_self) s hs hne rest
  generalize s ++ rest = cs at hopening hclosing
  unfold tableTag
  split
  · rw [hname, Option.map_none]
    exact fun hcs => hclosing (cons_prefix_cons.mpr ⟨rfl, cons_prefix_cons.mpr ⟨rfl, hcs⟩⟩)
  · rw [hname, Option.map_none]
    exact fun hcs => hopening (cons_prefix_cons.mpr ⟨rfl, hcs⟩)
  · rfl

structure RowFrame where
  opening : String
  closing : String
  before : String
  after : String

def rowFrame : Bool → RowFrame
  | true => ⟨"<th>", "</th>", "<thead>", "</thead><tbody>\n"⟩
  | false => ⟨"<td>", "</td>", "", "\n"⟩

def cellText (head : Bool) (cell : String) : List Char :=
  (rowFrame head).opening.toList ++ ((inline cell).toList ++ (rowFrame head).closing.toList)

def rowBody (head : Bool) (line : String) : List Char :=
  ['\n'] ++ (cells line).flatMap fun cell => cellText head cell ++ ['\n']

def rowText (head : Bool) (line : String) : List Char :=
  (rowFrame head).before.toList ++ ("<tr>".toList ++ (rowBody head line ++ "</tr>".toList)) ++
    (rowFrame head).after.toList

def shownLines (line : String) (ls : List String) : List (Bool × String) :=
  ((true, line) :: ls.map (false, ·)).filter fun x => !isSeparator x.2

def tableBody (line : String) (ls : List String) : List Char :=
  ['\n'] ++ ((shownLines line ls).flatMap (fun x => rowText x.1 x.2) ++ "</tbody>".toList)

variable {line : String} {ls : List String} {start : List Char}

lemma map_shownLines {β : Type} (k : String → β) : (shownLines line ls).map (fun x => k x.2) =
  ((line :: ls).filter fun l => !isSeparator l).map k := by
  have hlines : ((true, line) :: ls.map (false, ·)).map Prod.snd = line :: ls := by
    rw [map_cons, map_map]
    exact congrArg (line :: ·) (map_id ls)
  rw [← hlines, filter_map, map_map]
  rfl

lemma table_toList (line : String) (ls : List String) : (table (line :: ls)).toList =
  "<table class=\"doc-table\">".toList ++ (tableBody line ls ++ "</table>".toList) := by
  -- Only the index nought makes a difference, so all lines but the first are alike.
  have hrest : ∀ k, (ls.zipIdx (k + 1)).flatMap (fun x => tableLine x.2 x.1) = ls.flatMap (tableLine 1) := by
    induction ls with
    | nil => exact fun _ => rfl
    | cons line ls ih => exact fun k => congrArg (tableLine 1 line ++ ·) (ih (k + 1))
  have hlines : ∀ xs : List (Bool × String),
      (xs.flatMap fun x => tableLine (if x.1 then 0 else 1) x.2).flatMap (·.toList ++ ['\n']) =
        (xs.filter fun x => !isSeparator x.2).flatMap fun x => rowText x.1 x.2 := by
    intro xs
    induction xs with
    | nil => rfl
    | cons x xs ih =>
      rcases x with ⟨head, line⟩
      rw [flatMap_cons, flatMap_append, ih]
      cases h : isSeparator line <;> cases head <;>
        simp [tableLine, h, row, rowText, rowFrame, rowBody, cellText, flatMap_map]
  have hall : (line :: ls).zipIdx.flatMap (fun x => tableLine x.2 x.1) =
      ((true, line) :: ls.map (false, ·)).flatMap fun x => tableLine (if x.1 then 0 else 1) x.2 := by
    rw [flatMap_cons, flatMap_map]
    exact congrArg (tableLine 0 line ++ ·) (hrest 0)
  have htable : table (line :: ls) = unlines (["<table class=\"doc-table\">"] ++
      (line :: ls).zipIdx.flatMap (fun x => tableLine x.2 x.1) ++ ["</tbody></table>"]) := rfl
  rw [htable, unlines, toList_join, map_append, map_singleton, intercalate_concat, flatMap_map,
    flatMap_append, hall]
  have hshown := hlines ((true, line) :: ls.map (false, ·))
  rw [← shownLines] at hshown
  simp only [show "\n".toList = ['\n'] from rfl, hshown, tableBody]
  simp

lemma tableBody_yields {α : Type} {r : Recogniser α} {f : Bool → String → List α} {ends : List α}
  (hfeed : Yields r ['\n'] []) (hrow : ∀ head line, Yields r (rowText head line) (f head line))
  (hend : Yields r "</tbody>".toList ends) :
  Yields r (tableBody line ls) ((shownLines line ls).flatMap (fun x => f x.1 x.2) ++ ends) :=
  hfeed.append (.append (.flatMap fun x _ => hrow x.1 x.2) hend)

def rowPieces : List String := ["\n", "<th>", "</th>", "<td>", "</td>"]

lemma rowBody_shuns (head : Bool) (h : rowPieces.all (fun s => noEnd start s.toList))
  (hcell : ∀ cell ∈ cells line, Shuns start (inline cell).toList) :
  Shuns start (rowBody head line) := by
  have hfixed : ∀ s ∈ rowPieces, Shuns start s.toList := fun s hs => .of_noEnd (all_eq_true.mp h s hs)
  have hfeed := hfixed "\n" (by decide)
  cases head <;> exact hfeed.append (.flatMap fun cell hmem => ((hfixed _ (by decide)).append
    ((hcell cell hmem).append (hfixed _ (by decide)))).append hfeed)

lemma inline_shuns_closing (rest : List Char) (cell : String) :
  Shuns ("</t".toList ++ rest) (inline cell).toList :=
  Shuns.of_prefix (inline_tableless cell _ (mem_cons_of_mem _ mem_cons_self))

lemma rowText_yields (head : Bool) (line : String) :
  Yields (enclosed "<tr>" "</tr>" id) (rowText head line) [rowBody head line] := by
  have hrow : Yields (enclosed "<tr>" "</tr>" id) _ [id (rowBody head line)] :=
    enclosed_yields (by decide) (by decide)
      (rowBody_shuns head (by decide) fun cell _ => inline_shuns_closing "r>".toList cell)
  cases head <;> exact ((Yields.of_scan enclosed_blind fun _ => rfl).append hrow).append
    (.of_scan enclosed_blind fun _ => rfl)

lemma tableBody_rows (line : String) (ls : List String) :
  Yields (enclosed "<tr>" "</tr>" id) (tableBody line ls)
    ((shownLines line ls).map fun x => rowBody x.1 x.2) := by
  rw [map_eq_flatMap, ← append_nil (flatMap _ _)]
  exact tableBody_yields (.of_scan enclosed_blind fun _ => rfl) rowText_yields
    (.of_scan enclosed_blind fun _ => rfl)

lemma cellText_yields (head : Bool) (cell : String) :
  Yields cellElement (cellText head cell) [(inline cell).toList] := by
  have hclosing : Shuns (rowFrame head).closing.toList (inline cell).toList := by
    cases head
    · exact inline_shuns_closing "d>".toList cell
    · exact inline_shuns_closing "h>".toList cell
  have hfound : ∀ rest, enclosed (rowFrame head).opening (rowFrame head).closing id none
      (cellText head cell ++ rest) = some ((inline cell).toList, (cellText head cell).length) :=
    enclosed_append (by cases head <;> decide) hclosing
  refine .found (fun _ _ _ => rfl) (by cases head <;> exact cons_ne_nil _ _) fun rest => ?_
  cases head with
  | true =>
    have hth : enclosed "<th>" "</th>" id none (cellText true cell ++ rest) = _ := hfound rest
    rw [cellElement, hth, Option.orElse_eq_orElse, Option.orElse_some]
  | false =>
    have hshuns : Shuns "<th>".toList "<td>".toList := .of_noEnd (by decide)
    have hth : ¬ "<th>".toList <+: cellText false cell ++ rest := by
      rw [cellText, append_assoc]
      exact hshuns _ (suffix_refl _) (by decide) _
    have htd : enclosed "<td>" "</td>" id none (cellText false cell ++ rest) = _ := hfound rest
    rw [cellElement, enclosed_needs none _ hth, htd, Option.orElse_eq_orElse, Option.orElse_none]

lemma rowBody_yields {α : Type} {r : Recogniser α} {f : String → α} {head : Bool}
  (hfeed : Yields r ['\n'] []) (hcell : ∀ cell ∈ cells line, Yields r (cellText head cell) [f cell]) :
  Yields r (rowBody head line) ((cells line).map f) := by
  rw [map_eq_flatMap]
  exact hfeed.append (.flatMap fun cell hmem => (hcell cell hmem).append hfeed)

lemma shownRows_table (line : String) (ls : List String) : shownRows (table (line :: ls)) =
  ((line :: ls).filter fun l => !isSeparator l).map fun l => (cells l).map inline := by
  have hrows : finds (enclosed "<tr>" "</tr>" id) (table (line :: ls)).toList =
      [] ++ ((shownLines line ls).map (fun x => rowBody x.1 x.2) ++ []) := by
    rw [table_toList]
    exact ((Yields.of_scan enclosed_blind fun _ => rfl).append
      ((tableBody_rows line ls).append (.of_scan enclosed_blind fun _ => rfl))).eq
  have hcells : ∀ head line, finds cellElement (rowBody head line) =
      (cells line).map fun cell => (inline cell).toList := fun head line =>
    (rowBody_yields (.of_scan (fun _ _ _ => rfl) fun _ => rfl) fun cell _ => cellText_yields head cell).eq
  simp [shownRows, hrows, hcells, ← map_shownLines]

def rowEdges : Bool → String → List Edge
  | true, line => [.start "thead"] ++ ([.start "tr"] ++
      ((cells line).flatMap (fun _ => [.start "th", .stop "th"]) ++ [.stop "tr"])) ++
        [.stop "thead", .start "tbody"]
  | false, line =>
    [.start "tr"] ++ ((cells line).flatMap (fun _ => [.start "td", .stop "td"]) ++ [.stop "tr"])

lemma rowText_yields_edges (head : Bool) (line : String) :
  Yields tableTag (rowText head line) (rowEdges head line) := by
  have hfeed : Yields tableTag ['\n'] [] := .of_scan tableTag_blind fun _ => rfl
  have hrow : ∀ {x}, Yields tableTag (rowFrame head).opening.toList [.start x] →
      Yields tableTag (rowFrame head).closing.toList [.stop x] →
      Yields tableTag ("<tr>".toList ++ (rowBody head line ++ "</tr>".toList)) ([.start "tr"] ++
        ((cells line).flatMap (fun _ => [.start x, .stop x]) ++ [.stop "tr"])) :=
    fun hopening hclosing => (Yields.of_scan tableTag_blind fun _ => rfl).append
      ((hfeed.append (.flatMap fun cell _ => (hopening.append
        ((inline_tableless cell).yields.append hclosing)).append hfeed)).append
          (.of_scan tableTag_blind fun _ => rfl))
  cases head with
  | true =>
    exact ((Yields.of_scan tableTag_blind fun _ => rfl).append (hrow
      (.of_scan tableTag_blind fun _ => rfl) (.of_scan tableTag_blind fun _ => rfl))).append
        (.of_scan tableTag_blind fun _ => rfl)
  | false =>
    rw [← append_nil (rowEdges false line)]
    exact (hrow (.of_scan tableTag_blind fun _ => rfl) (.of_scan tableTag_blind fun _ => rfl)).append hfeed

lemma closes_rowEdges {st : List String} {w : List Edge} (line : String) :
  (Closes st (rowEdges false line ++ w) ↔ Closes st w) ∧
    (Closes st (rowEdges true line ++ w) ↔ Closes ("tbody" :: st) w) := by
  have hcells : ∀ x st w (l : List String),
      Closes st ((l.flatMap fun _ => [Edge.start x, .stop x]) ++ w) ↔ Closes st w := by
    intro x st w l
    induction l with
    | nil => exact Iff.rfl
    | cons cell l ih => simpa [Closes] using ih
  simp [rowEdges, closes_start_iff, hcells, Closes]

lemma closes_tableTags (line : String) (ls : List String) :
  Closes [] (tableTags (table (line :: ls))) ↔ isSeparator line = false := by
  -- The lines after the first one leave the stack as it is.
  have hrest : ∀ st w, Closes st (((ls.map (false, ·)).filter fun x => !isSeparator x.2).flatMap
      (fun x => rowEdges x.1 x.2) ++ w) ↔ Closes st w := by
    intro st w
    induction ls with
    | nil => exact Iff.rfl
    | cons next ls ih =>
      cases hnext : isSeparator next with
      | true => simpa [hnext] using ih
      | false => simpa [hnext, (closes_rowEdges next).1] using ih
  have htags : tableTags (table (line :: ls)) = [.start "table"] ++
      (((shownLines line ls).flatMap (fun x => rowEdges x.1 x.2) ++ [.stop "tbody"]) ++
        [.stop "table"]) := by
    rw [tableTags, table_toList]
    exact ((Yields.of_scan tableTag_blind fun _ => rfl).append
      ((tableBody_yields (.of_scan tableTag_blind fun _ => rfl) rowText_yields_edges
        (.of_scan tableTag_blind fun _ => rfl)).append (.of_scan tableTag_blind fun _ => rfl))).eq
  rw [htags, shownLines]
  cases hline : isSeparator line with
  | true => simp [hline, closes_start_iff, hrest, Closes]
  | false => simp [hline, closes_start_iff, (closes_rowEdges line).2, hrest, Closes]

/-- The trimmed texts after the bars of a line. -/
def barTexts (line : String) : List String :=
  (splitAtChar '|' line.toList).tail.map fun cell => String.ofList (trimChars cell)

/-- The texts of all cells of a line: a blank text after the last bar is no cell. -/
def cellTexts (line : String) : List String :=
  if (barTexts line).getLast? = some "" then (barTexts line).dropLast else barTexts line

lemma cells_eq_dropLast (line : String) : cells line = (barTexts line).dropLast := map_dropLast

lemma map_cells_eq_iff (f : String → String) (line : String) :
  (cells line).map f = (cellTexts line).map f ↔ (barTexts line).getLast?.getD "" = "" := by
  rcases eq_nil_or_concat (barTexts line) with h | ⟨front, last, h⟩
  · simp [cells_eq_dropLast, cellTexts, h]
  · by_cases hlast : last = "" <;> simp [cells_eq_dropLast, cellTexts, h, hlast]

/-- A table shows one row for every line that is no separator, with what stands between the bars of
the line. These are all cells just if no text follows the last bar of a line. The tags are in order
just if the first line is no separator. -/
theorem table_complete_iff (line : String) (ls : List String) :
  shownRows (table (line :: ls)) = ((line :: ls).filter fun l => !isSeparator l).map
      (fun l => (barTexts l).dropLast.map inline) ∧
    (shownRows (table (line :: ls)) = ((line :: ls).filter fun l => !isSeparator l).map
        (fun l => (cellTexts l).map inline) ↔
      ∀ l ∈ line :: ls, isSeparator l = false → (barTexts l).getLast?.getD "" = "") ∧
    (Closes [] (tableTags (table (line :: ls))) ↔ isSeparator line = false) := by
  have hrows := shownRows_table line ls
  refine ⟨?_, ?_, closes_tableTags line ls⟩
  · simp only [hrows, cells_eq_dropLast]
  · rw [hrows, map_inj_left]
    simp only [map_cells_eq_iff, mem_filter, Bool.not_eq_true', and_imp]

end KeywordDocs.Markup
