import KeywordDocs.Highlight.Vocabulary

/-!
# Variables, Keywords and Arguments

Highlighting inside a line of test code. What is found is first replaced by a *marker*, a word with a running
number, so that later searches do not look into it; at the end coloured stretches replace the markers,
variables first, then the keyword, then named arguments.
-/

namespace KeywordDocs.Highlight

open Text

variable (family : String) (cs : List Char)

inductive Ink where
  | comment
  | sectionHeader
  | setting
  | title
  | control
  | keyword
  | reference
  | argument

def Ink.style : Ink → String
  | .comment => "color: #6a9955; font-style: italic;"
  | .sectionHeader => "color: #569cd6; font-weight: bold;"
  | .setting => "color: #c586c0; font-weight: bold;"
  | .title => "color: #dcdcaa; font-weight: bold;"
  | .control => "color: #ce9178; font-weight: bold;"
  | .keyword => "color: #4ec9b0; font-weight: bold;"
  | .reference => "color: #9cdcfe;"
  | .argument => "color: #dcdcaa;"

def Ink.span (ink : Ink) (cs : List Char) : List Char :=
  ("<span style=\"" ++ ink.style ++ "\">").toList ++ cs ++ "</span>".toList

abbrev Marks := List (List Char × List Char)

variable (marks : Marks)

def marker (n : Nat) : List Char := ("__" ++ family ++ "_MARKER_").toList ++ Number.digitsOf n ++ ['_', '_']

def markPieces (family : String) : Nat → List (Piece (List Char)) → List Char × List (List Char)
  | _, [] => ([], [])
  | n, .plain c :: ps =>
    let (text, found) := markPieces family n ps
    (c :: text, found)
  | n, .found a :: ps =>
    let (text, found) := markPieces family (n + 1) ps
    (marker family n ++ text, a :: found)

def numbered (n : Nat) (found : List (List Char)) : Marks :=
  (found.zipIdx n).map fun (a, i) => (marker family i, a)

def reference (sign : Char) : Recogniser (List Char)
  | _, c :: '\x7b' :: cs =>
    if c = sign then
      match cs.span (· ≠ '\x7d') with
      | (n :: name, _ :: _) => some (c :: '\x7b' :: n :: name ++ ['\x7d'], name.length + 4)
      | _ => none
    else none
  | _, _ => none

def variableSigns : List Char := ['$', '@', '&']

def markVariables : List Char × Marks :=
  variableSigns.foldl (fun (cs, marks) sign =>
    let (text, found) := markPieces "VAR" marks.length (scan (reference sign) cs)
    (text, marks ++ numbered "VAR" marks.length (found.map Ink.reference.span))) (cs, [])

def endsWord : List Char → Bool
  | [] => true
  | c :: _ => !isAsciiWord c

def splitAtWord (name : List Char) : Option Char → List Char → Option (List Char × List Char)
  | before, cs =>
    let here := if atBoundary before cs.head? then
        (dropPrefix? name cs).filter endsWord
      else none
    match here, cs with
    | some rest, _ => some ([], rest)
    | none, [] => none
    | none, c :: cs => (splitAtWord name (some c) cs).map fun (front, rest) => (c :: front, rest)

def hasKeywordMarker : List Char → Bool
  | [] => false
  | c :: cs =>
    (match dropPrefix? "__KW_MARKER_".toList (c :: cs) with
      | some rest => containsChars ['_', '_'] (rest.takeWhile (· ≠ '\n'))
      | none => false) || hasKeywordMarker cs

def markKeyword (names : List String) (cs : List Char) : List Char × Marks :=
  if hasKeywordMarker cs then (cs, [])
  else
    match names.findSome? fun name =>
        (splitAtWord name.toList none cs).map fun split => (name, split) with
    | some (name, front, rest) =>
      (front ++ marker "KW" 0 ++ rest, [(marker "KW" 0, Ink.keyword.span name.toList)])
    | none => (cs, [])

def markerAt? : Option (List Char) := do
  let start := ("__" ++ family ++ "_MARKER_").toList
  let rest ← dropPrefix? start cs
  match rest.span isDigit with
  | (d :: ds, '_' :: '_' :: _) => some (start ++ d :: ds ++ ['_', '_'])
  | _ => none

def quotedAt? (quote : Char) : List Char → Option (List Char)
  | c :: cs =>
    if c = quote then
      match cs.span (· ≠ quote) with
      | (body, _ :: _) => some (c :: body ++ [quote])
      | _ => none
    else none
  | [] => none

def argumentValue? : Option (List Char) :=
  markerAt? "VAR" cs <|> markerAt? "KW" cs <|> quotedAt? '"' cs <|> quotedAt? '\'' cs <|>
    match cs.takeWhile (fun c => !isBlank c && c ≠ '<') with
    | [] => none
    | value => some value

def namedArgument : Recogniser (List Char × List Char) := fun before cs => do
  let name := cs.takeWhile isAsciiWord
  let first ← name.head?
  guard (!isWordAt before && !first.isDigit)
  let afterName := cs.drop name.length
  match afterName.span isBlank with
  | (gap, '=' :: rest) =>
    let (gap', rest) := rest.span isBlank
    let value ← argumentValue? rest
    return ((name, value), name.length + gap.length + 1 + gap'.length + value.length)
  | _ => none

def argumentSpan (arg : List Char × List Char) : List Char :=
  Ink.argument.span arg.1 ++ '=' :: (marks.lookup arg.2).getD arg.2

def markArguments (cs : List Char) : List Char × Marks :=
  let asSpan : Recogniser (List Char) := fun before cs =>
    (namedArgument before cs).map fun (arg, n) => (argumentSpan marks arg, n)
  let (text, found) := markPieces "ARG" 0 (scan asSpan cs)
  (text, numbered "ARG" 0 found)

def unmark (cs : List Char) : List Char := marks.foldl (fun cs m => replaceChars m.1 m.2 cs) cs

def splitComment : List Char → Option (List Char × List Char × List Char)
  | [] => none
  | c :: cs =>
    let (comment, rest) := (c :: cs).span (· ≠ '\n')
    if c = '#' && (rest = [] || rest = ['\n']) then some ([], comment, rest)
    else (splitComment cs).map fun (front, comment, rest) => (c :: front, comment, rest)

def highlightComment (wrap : List Char → List Char) (cs : List Char) : List Char :=
  match splitComment cs with
  | some (front, comment, rest) => front ++ wrap comment ++ rest
  | none => cs

def highlightComments : List Char :=
  (pieces Markup.tag cs).flatMap fun
    | .inr t => t
    | .inl part =>
      if part.head? = some '<' && part.getLast? = some '>' then part
      else highlightComment Ink.comment.span part

def highlightVariablesWith (names : List String) (text : List Char) : List Char :=
  let (cs, references) := markVariables text
  let (cs, keywords) := markKeyword names cs
  let (cs, arguments) := markArguments (references ++ keywords) cs
  highlightComments (unmark (references ++ keywords ++ arguments) cs)

def highlightVariables (config : Option Json) (text : List Char) : Highlighting (List Char) := do
  let names ← knownNames config
  return highlightVariablesWith (longestFirst names) text

end KeywordDocs.Highlight
