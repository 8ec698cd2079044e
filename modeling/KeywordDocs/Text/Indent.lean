import KeywordDocs.Text.Blank
import KeywordDocs.Text.Phrase

/-!
# Indentation

Removing the indentation all lines of a text share.
-/

namespace KeywordDocs.Text

variable (step : Nat) (s : String)

def isIndent (c : Char) : Bool := c == ' ' || c == '\t'

def commonStart : List Char → List Char → List Char
  | a :: as, b :: bs => if a = b then a :: commonStart as bs else []
  | _, _ => []

def margin (ls : List (List Char)) : List Char :=
  match ls.filter (fun l => !l.all isIndent) with
  | [] => []
  | l :: rest => rest.foldl (fun m l => commonStart m (l.takeWhile isIndent)) (l.takeWhile isIndent)

def dedentLine (m line : List Char) : List Char :=
  if line.all isIndent then [] else (dropPrefix? m line).getD line

def dedent : String :=
  let ls := splitAtChar '\n' s.toList
  let m := margin ls
  unlines (ls.map fun l => String.ofList (dedentLine m l))

def expandTabsFrom : Nat → List Char → List Char
  | _, [] => []
  | column, c :: cs =>
    if c = '\t' then
      let width := 8 - column % 8
      List.replicate width ' ' ++ expandTabsFrom (column + width) cs
    else if c = '\n' || c = '\r' then c :: expandTabsFrom 0 cs
    else c :: expandTabsFrom (column + 1) cs

def expandTabs (cs : List Char) : List Char := expandTabsFrom 0 cs

def sharedIndent (ls : List (List Char)) : Option Nat :=
  ((ls.filter fun l => !l.all isBlank).map fun l => (l.takeWhile isBlank).length).min?

def clean : String :=
  match splitAtChar '\n' (expandTabs s.toList) with
  | [] => ""
  | first :: rest =>
    let rest := match sharedIndent rest with
      | some n => rest.map (List.drop n)
      | none => rest
    let ls := (dropEndWhile List.isEmpty (trimLeftChars first :: rest)).dropWhile List.isEmpty
    unlines (ls.map String.ofList)

def layOutFrom (step indent : Nat) (opened : Bool) : List (List Char) → List (List Char)
  | [] => []
  | line :: rest =>
    let tabs := (line.takeWhile (· = '\t')).length
    let body := line.drop tabs
    let closes := body.head?.any "\x7d)]".toList.contains
    let spaces :=
      if tabs > 0 then step * (tabs - 1)
      else indent + (if opened then step else 0) - if closes then step else 0
    if line.isEmpty then [] :: layOutFrom step indent opened rest
    else if body.isEmpty then List.replicate spaces ' ' :: layOutFrom step indent opened rest
    else (List.replicate spaces ' ' ++ body) ::
      layOutFrom step spaces (body.getLast?.any "\x7b([".toList.contains) rest

def layOut : String :=
  let braced := (spelledOut s).map fun c =>
    if c = '^' then '\x7b' else if c = '~' then '\x7d' else c
  unlines ((layOutFrom step 0 false (splitAtChar '\n' braced)).map String.ofList)

def styleRules : String :=
  let line (cs : List Char) := if cs.getLast?.all "^~,/\t".toList.contains then cs else cs ++ [';']
  let lines := (splitAtChar '\n' (spelledOut s)).map (String.ofList ∘ line)
  layOut step (replace "$(" "var(--" (unlines lines))

end KeywordDocs.Text
