import KeywordDocs.Source.Token.Literal

/-!
# Texts with Fields

The parts of a text with fields: plain stretches, and fields in braces.
-/

namespace KeywordDocs.Source

open Text

inductive TemplatePart where
  | plain (s : String)
  /-- The source of an expression, the text that labels it, its conversion and its format. -/
  | field (source : String) (label : Option String) (conversion : Option Char)
      (format : Option (List TemplatePart))

def plainStretch (raw doubled : Bool) : List Char → Option (List Char × List Char × Bool)
  | [] => some ([], [], false)
  | '\\' :: 'N' :: '{' :: cs =>
    if raw then
      if doubled && cs.head? = some '{' then some (['\\', 'N', '{'], cs.drop 1, true)
      else some (['\\', 'N'], '{' :: cs, false)
    else
      let name := cs.takeWhile (· ≠ '}')
      (plainStretch raw doubled (cs.drop (name.length + 1))).map fun (s, rest) =>
        ('\\' :: 'N' :: '{' :: name ++ '}' :: s, rest)
  | '\\' :: c :: cs =>
    if raw || c == '{' || c == '}' then
      (plainStretch raw doubled (c :: cs)).map fun (s, rest) => ('\\' :: s, rest)
    else (plainStretch raw doubled cs).map fun (s, rest) => ('\\' :: c :: s, rest)
  | c :: cs =>
    if c == '{' || c == '}' then
      if doubled && cs.head? = some c then some ([c], cs.drop 1, true)
      else if doubled && c == '}' then none
      else some ([], c :: cs, false)
    else (plainStretch raw doubled cs).map fun (s, rest) => (c :: s, rest)
  termination_by cs => cs.length
  decreasing_by all_goals (simp only [List.length_cons, List.length_drop]; omega)

def closes (opening closing : Char) : Bool :=
  (opening == '(' && closing == ')') || (opening == '[' && closing == ']') ||
    (opening == '{' && closing == '}')

def quotedStretch (mark : List Char) : List Char → Option (List Char × List Char)
  | [] => none
  | c :: cs =>
    if mark.isPrefixOf (c :: cs) then some (mark, (c :: cs).drop mark.length)
    else if c == '\\' then none
    else (quotedStretch mark cs).map fun (s, rest) => (c :: s, rest)

def fieldSource : Nat → List Char → List Char → Option (List Char × List Char)
  | 0, _, _ => none
  | _, _, [] => none
  | fuel + 1, opened, c :: cs =>
    let taken (n : Nat) (opened : List Char) :=
      (fieldSource fuel opened ((c :: cs).drop n)).map fun (s, rest) => ((c :: cs).take n ++ s, rest)
    if c == '\\' || c == '#' then none
    else if c == '\'' || c == '"' then do
      let mark := if [c, c, c].isPrefixOf (c :: cs) then [c, c, c] else [c]
      let (quoted, rest) ← quotedStretch mark ((c :: cs).drop mark.length)
      let (s, rest) ← fieldSource fuel opened rest
      return (mark ++ quoted ++ s, rest)
    else if c == '(' || c == '[' || c == '{' then taken 1 (c :: opened)
    else if opened.isEmpty && (c == '!' || c == ':' || c == '}' || c == '=' || c == '<' || c == '>')
    then
      if cs.head? = some '=' && c ≠ ':' && c ≠ '}' then taken 2 opened
      else if c == '<' || c == '>' then taken 1 opened
      else some ([], c :: cs)
    else if c == ')' || c == ']' || c == '}' then
      match opened with
      | o :: outer => if closes o c then taken 1 outer else none
      | [] => none
    else taken 1 opened

def fieldLabel (source : List Char) : List Char → Option String × List Char
  | '=' :: cs =>
    let gap := cs.takeWhile fun c => c == ' ' || (9 ≤ c.toNat && c.toNat ≤ 13)
    (some (String.ofList (source ++ '=' :: gap)), cs.drop gap.length)
  | cs => (none, cs)

def fieldConversion : List Char → Option (Option Char × List Char)
  | '!' :: c :: cs => if c == 's' || c == 'r' || c == 'a' then some (some c, cs) else none
  | '!' :: [] => none
  | cs => some (none, cs)

def templateFrom : Nat → Bool → Nat → List Char → Option (List TemplatePart × List Char)
  | 0, _, _, _ => none
  | fuel + 1, raw, level, cs => do
    let (stretch, rest, doubled) ← plainStretch raw (level == 0) cs
    let s ← if raw then some (String.ofList stretch) else unescape stretch
    let here : List TemplatePart := if s.isEmpty then [] else [.plain s]
    if doubled then
      let (more, rest) ← templateFrom fuel raw level rest
      return (here ++ more, rest)
    else match rest with
      | '{' :: inner =>
        if 2 ≤ level then none
        let (source, rest) ← fieldSource (inner.length + 1) [] inner
        if source.all isBlank then none
        let (label, rest) := fieldLabel source rest
        let (conversion, rest) ← fieldConversion rest
        let (format, rest) ← match rest with
          | ':' :: after => (templateFrom fuel raw (level + 1) after).map fun (f, r) => (some f, r)
          | _ => some (none, rest)
        match rest with
        | '}' :: after =>
          let shown := if label.isSome && format.isNone && conversion.isNone then some 'r'
            else conversion
          let (more, rest) ← templateFrom fuel raw level after
          return (here ++ .field (String.ofList source) label shown format :: more, rest)
        | _ => none
      | _ => return (here, rest)

def templateParts (raw : Bool) (body : List Char) : Option (List TemplatePart) :=
  match templateFrom (2 * body.length + 2) raw 0 body with
  | some (parts, []) => some parts
  | _ => none

end KeywordDocs.Source
