import KeywordDocs.Text.Blank
import KeywordDocs.Text.Search

/-!
# Blocks of Documentation

A documentation text is read line by line into *fragments*: headings, paragraphs, list items, rules,
tables and fenced code.
-/

namespace KeywordDocs.Markup

open Text

variable (line : String)

inductive Fragment where
  | listOpen
  | listClose
  | codeOpen (language : String)
  | codeClose
  | code (language : String) (lines : List String)
  | heading (level : Nat) (text : String)
  | item (text : String)
  | paragraph (text : String)
  | rule
  | gap
  | table (lines : List String)
  deriving DecidableEq

inductive LineShape where
  | heading (level : Nat) (text : String)
  | rule
  | item (text : String)
  | blank
  | paragraph (text : String)

def isFence : Bool := startsWith "```" line

def fenceLanguage : String :=
  let name := trim (drop 3 line)
  if name.isEmpty then "text" else name

def isTableLine : Bool :=
  match line.toList with
  | '|' :: cs => cs.contains '|'
  | _ => false

def heading? (body : List Char) : Option (Nat × String) :=
  let level := (body.takeWhile (· = '#')).length
  if 1 ≤ level ∧ level ≤ 6 then
    match body.drop level with
    | ' ' :: text => some (level, String.ofList text)
    | _ => none
  else none

def shape : LineShape :=
  let body := trimChars line.toList
  match heading? body with
  | some (level, text) => .heading level text
  | none =>
    if startsWith "---" line || startsWith "***" line then .rule
    else match body with
      | '-' :: ' ' :: text => .item (String.ofList text)
      | [] => .blank
      | _ => .paragraph line

structure Reading where
  fence : Option String := none
  table : Option (List String) := none
  inList : Bool := false
  afterTable : Bool := false
  /-- Whether the last line was a heading, an item or a paragraph. -/
  afterContent : Bool := false
  /-- Whether the last heading or paragraph was a paragraph, with no blank line after it. -/
  afterParagraph : Bool := false

variable (st : Reading)

namespace Reading

def closeList : List Fragment :=
  if st.inList then [.listClose] else []

def closeTable : List Fragment :=
  match st.table with
  | some lines => [.table lines]
  | none => []

def tableClosed : Reading :=
  if st.table.isSome then { st with table := none, afterTable := true } else st

def gapAt (rest : List String) : List Fragment :=
  let next := rest.find? fun line => !isBlankText line
  if !st.inList && !st.afterTable && !st.afterParagraph && st.afterContent
      && !(next.map isFence).getD false then [.gap] else []

def step (line : String) (rest : List String) : List Fragment × Reading :=
  match shape line with
  | .heading level text =>
    (st.closeList ++ [.heading level text],
      { st with inList := false, afterContent := true, afterParagraph := false })
  | .rule => ([.rule], st)
  | .item text =>
    ((if st.inList then [] else [.listOpen]) ++ [.item text],
      { st with inList := true, afterContent := true })
  | .blank => (st.gapAt rest, { st with afterContent := false, afterParagraph := false, afterTable := false })
  | .paragraph text =>
    (st.closeList ++ [.paragraph text],
      { st with inList := false, afterContent := true, afterParagraph := true, afterTable := false })

def finish : List Fragment := (if st.fence.isSome then [.codeClose] else []) ++ st.closeTable ++ st.closeList

def walk (st : Reading) : List String → List Fragment
  | [] => st.finish
  | raw :: rest =>
    match st.fence with
    | some language =>
      if isFence raw then .codeClose :: walk { st with fence := none } rest
      else
        .code language (raw :: rest.takeWhile fun l => !isFence l) ::
          walk st (rest.dropWhile fun l => !isFence l)
    | none =>
      let line := trimRight raw
      if isFence line then
        .codeOpen (fenceLanguage line) :: walk { st with fence := some (fenceLanguage line) } rest
      else if isTableLine line then
        walk { st with table := some (st.table.getD [] ++ [line]) } rest
      else
        let (out, next) := st.tableClosed.step line rest
        st.closeTable ++ out ++ walk next rest
termination_by lines => lines.length
decreasing_by
  all_goals simp_wf
  have h := (List.dropWhile_sublist (l := rest) fun l => !isFence l).length_le
  omega

end Reading

def fragments (content : String) : List Fragment :=
  if content.isEmpty then [] else Reading.walk {} (lines (trim content))

end KeywordDocs.Markup
