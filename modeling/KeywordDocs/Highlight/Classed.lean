import KeywordDocs.Highlight.Variables

/-!
# Test Code with Style Classes

A second way to highlight a line of test code: stretches get a class of a style sheet instead of a
colour.
-/

namespace KeywordDocs.Highlight

open Text

variable (cs : List Char)

def classed (name : String) (cs : List Char) : List Char :=
  ("<span class=\"robot-" ++ name ++ "\">").toList ++ cs ++ "</span>".toList

def blankRun : Option (List Char × List Char) :=
  match cs.span isBlank with
  | ([], _) => none
  | split => some split

def sectionHeader (title style : String) : Recogniser (List Char) := fun _ cs => do
  let stars := ['*', '*', '*']
  let rest ← dropPrefix? stars cs
  let (gap, rest) ← blankRun rest
  let rest ← dropPrefix? title.toList rest
  let (gap', rest) ← blankRun rest
  let _ ← dropPrefix? stars rest
  let text := stars ++ gap ++ title.toList ++ gap' ++ stars
  return (classed style text, text.length)

def sections : List (String × String) :=
  [("Settings", "settings"), ("Test Cases", "test-cases"), ("Keywords", "test-cases"),
    ("Variables", "test-cases")]

def classedReference (sign : Char) : Recogniser (List Char) := fun before cs =>
  (reference sign before cs).map fun (text, n) => (classed "variables" text, n)

def quotedText : Recogniser (List Char)
  | _, q :: cs =>
    if q = '"' || q = '\'' then
      match cs.span fun c => c ≠ '"' && c ≠ '\'' with
      | (body, c :: _) =>
        if c = q then some (q :: classed "strings" body ++ [q], body.length + 2) else none
      | _ => none
    else none
  | _, [] => none

def number : Recogniser (List Char) := fun before cs =>
  let digits := cs.takeWhile isDigit
  if !digits.isEmpty && !isWordAt before && !isWordAt (cs.drop digits.length).head? then
    some (classed "numbers" digits, digits.length)
  else none

def atEnd : Bool := cs = [] || cs = ['\n']

def restOfLine : Option (List Char × List Char) :=
  let (line, rest) := cs.span (· ≠ '\n')
  if atEnd rest then some (line, rest) else none

def argumentTail : Option (List Char × List Char) :=
  let gap := (cs.takeWhile isBlank).length
  (List.range gap).reverse.findSome? fun k =>
    (restOfLine (cs.drop (k + 1))).map fun (line, rest) => (cs.take (k + 1) ++ line, rest)

def isNameChar (c : Char) : Bool := c.isAlphanum || isBlank c

def splitName (cs : List Char) : Option (List Char × List Char × List Char) :=
  match argumentTail cs with
  | some (tail, rest) => some ([], tail, rest)
  | none =>
    if atEnd cs then some ([], [], cs)
    else match cs with
      | c :: more =>
        if isNameChar c then
          (splitName more).map fun (name, tail, rest) => (c :: name, tail, rest)
        else none
      | [] => none

def classedStep : List Char :=
  let (indent, body) := cs.span isBlank
  match body with
  | c :: more =>
    if 4 ≤ indent.length && c.isAlpha then
      match splitName more with
      | some (name, tail, rest) => indent ++ classed "keywords" (c :: name) ++ tail ++ rest
      | none => cs
    else cs
  | [] => cs

def classifiedLine (line : String) : String :=
  if line.isEmpty then ""
  else
    let cs := (Markup.escape line).toList
    let cs := sections.foldl (fun cs s => replaceFinds (sectionHeader s.1 s.2) cs) cs
    let cs := classedStep cs
    let cs := variableSigns.foldl (fun cs sign => replaceFinds (classedReference sign) cs) cs
    let cs := highlightComment (classed "comments") cs
    String.ofList (replaceFinds number (replaceFinds quotedText cs))

end KeywordDocs.Highlight
