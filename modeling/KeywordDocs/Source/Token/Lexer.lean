import KeywordDocs.Source.Token.Literal

/-!
# Dividing a Source into Tokens

A source is read character by character. Outside brackets the end of a line is a token, and the indentation of
a line that holds more than blanks and a comment is compared with that of the enclosing blocks: a deeper one
opens a block, and a return to an outer one closes the blocks between.
-/

namespace KeywordDocs.Source

open Text

structure Column where
  wide : Nat
  narrow : Nat

structure Lexer where
  line : Nat := 1
  indents : List Column := []
  brackets : List Char := []
  atStart : Bool := true

namespace Lexer

def current (l : Lexer) : Column := l.indents.headD ⟨0, 0⟩

def indentation : Nat → Column → List Char → Option Column × List Char × Nat
  | skipped, col, ' ' :: cs => indentation skipped ⟨col.wide + 1, col.narrow + 1⟩ cs
  | skipped, col, '\t' :: cs => indentation skipped ⟨(col.wide / 8 + 1) * 8, col.narrow + 1⟩ cs
  | skipped, col, c :: cs =>
    if c = Char.ofNat 12 then indentation skipped ⟨0, 0⟩ cs
    else match c, cs with
      | '\\', '\n' :: rest =>
        let (later, after, skipped) := indentation (skipped + 1) ⟨0, 0⟩ rest
        (if col.wide = 0 then later else some col, after, skipped)
      | _, _ => (some col, c :: cs, skipped)
  | skipped, col, [] => (some col, [], skipped)

def closedBlocks (col : Column) : List Column → Nat × List Column
  | [] => (0, [])
  | top :: outer =>
    if col.wide < top.wide then
      let (n, left) := closedBlocks col outer
      (n + 1, left)
    else (0, top :: outer)

def indentTokens (l : Lexer) (col : Column) : Except Fault (List Token × List Column) :=
  let top := l.current
  if col.wide = top.wide then
    if col.narrow = top.narrow then .ok ([], l.indents) else .error .mixedIndentation
  else if top.wide < col.wide then
    if 99 ≤ l.indents.length then .error .badIndentation
    else if col.narrow ≤ top.narrow then .error .mixedIndentation
    else .ok ([.indent], col :: l.indents)
  else
    let (n, left) := closedBlocks col l.indents
    let outer := left.headD ⟨0, 0⟩
    if col.wide ≠ outer.wide then .error .badIndentation
    else if col.narrow ≠ outer.narrow then .error .mixedIndentation
    else .ok (List.replicate n .dedent, left)

def isLiteralMark (mark : List Char) : Bool :=
  let m := mark.map Char.toLower
  [[], ['r'], ['b'], ['u'], ['f'], ['b', 'r'], ['r', 'b'], ['f', 'r'], ['r', 'f']].contains m

def literalBody (quote : List Char) : List Char → Option (List Char × List Char)
  | [] => none
  | '\\' :: c :: cs => (literalBody quote cs).map fun (body, rest) => ('\\' :: c :: body, rest)
  | c :: cs =>
    if quote.isPrefixOf (c :: cs) then some ([], (c :: cs).drop quote.length)
    else if c == '\n' && quote.length == 1 then none
    else (literalBody quote cs).map fun (body, rest) => (c :: body, rest)

def literalOf (mark body : List Char) : Option TextLiteral :=
  let m := mark.map Char.toLower
  let raw := m.contains 'r'
  if m.contains 'b' then (unescapeBytes raw body).map .bytes
  else if m.contains 'f' then some (.template raw body)
  else (if raw then some (String.ofList body) else unescape body).map (.text · (m.contains 'u'))

def quotedToken (mark cs : List Char) : Option (TextLiteral × List Char × Nat) :=
  match cs with
  | [] => none
  | q :: _ => do
    let quote := if [q, q, q].isPrefixOf cs then [q, q, q] else [q]
    let (body, rest) ← literalBody quote (cs.drop quote.length)
    let t ← literalOf mark body
    return (t, rest, body.count '\n')

def markAt (c : Char) (cs : List Char) : String :=
  (longMarks.find? fun m => m.toList.isPrefixOf (c :: cs)).getD (String.singleton c)

def isWordLike (c : Char) : Bool := c.isAlphanum || c == '_' || 128 ≤ c.toNat

def run : Nat → Lexer → List Char → List Lexeme
  | 0, l, _ => [⟨.fault .malformedSource, l.line⟩]
  | fuel + 1, l, cs =>
    let stop (f : Fault) : List Lexeme := [⟨.fault f, l.line⟩]
    if l.atStart then
      let (col, rest, skipped) := indentation 0 ⟨0, 0⟩ cs
      let l := { l with line := l.line + skipped }
      if rest.head? = some '\n' then run fuel { l with line := l.line + 1 } (rest.drop 1)
      else if rest.head? = some '#' then
        run fuel { l with line := l.line + 1 } ((rest.dropWhile (· ≠ '\n')).drop 1)
      else match l.indentTokens (col.getD ⟨0, 0⟩) with
        | .error f => stop f
        | .ok (ts, indents) => ts.map (⟨·, l.line⟩) ++ run fuel { l with indents, atStart := false } rest
    else match cs with
      | [] =>
        if l.brackets.isEmpty then
          l.indents.map (fun _ => ⟨.dedent, l.line⟩) ++ [⟨.finish, l.line⟩]
        else stop .malformedSource
      | c :: rest =>
        if c == ' ' || c == '\t' || c == Char.ofNat 12 then run fuel l rest
        else if c == '#' then run fuel l (rest.dropWhile (· ≠ '\n'))
        else if c == '\n' then
          if l.brackets.isEmpty then
            ⟨.newline, l.line⟩ :: run fuel { l with line := l.line + 1, atStart := true } rest
          else run fuel { l with line := l.line + 1 } rest
        else if c == '\\' then
          match rest with
          | '\n' :: d :: after => run fuel { l with line := l.line + 1 } (d :: after)
          | _ => stop .malformedSource
        else if c == '\'' || c == '"' then
          match quotedToken [] cs with
          | some (t, after, n) => ⟨.literal t, l.line⟩ :: run fuel { l with line := l.line + n } after
          | none => stop .malformedSource
        else if c.isDigit || (c == '.' && (rest.headD ' ').isDigit) then
          match readNumber cs with
          | some (v, after) => ⟨.number v, l.line⟩ :: run fuel l after
          | none => stop .malformedSource
        else if isWordLike c then
          let word := cs.takeWhile isWordLike
          let after := cs.drop word.length
          let quoted := after.head? == some '\'' || after.head? == some '"'
          if quoted && isLiteralMark word then
            match quotedToken word after with
            | some (t, after, n) => ⟨.literal t, l.line⟩ :: run fuel { l with line := l.line + n } after
            | none => stop .malformedSource
          else if isIdentifier word then ⟨.word (String.ofList word), l.line⟩ :: run fuel l after
          else stop .malformedSource
        else if c == '(' || c == '[' || c == '{' then
          if 200 ≤ l.brackets.length then stop .malformedSource
          else ⟨.mark (String.singleton c), l.line⟩ ::
            run fuel { l with brackets := c :: l.brackets } rest
        else if c == ')' || c == ']' || c == '}' then
          match l.brackets with
          | o :: outer =>
            if (o == '(' && c == ')') || (o == '[' && c == ']') || (o == '{' && c == '}') then
              ⟨.mark (String.singleton c), l.line⟩ :: run fuel { l with brackets := outer } rest
            else stop .malformedSource
          | [] => stop .malformedSource
        else if c.toNat < 32 || c.toNat = 127 then stop .malformedSource
        else
          let m := markAt c rest
          ⟨.mark m, l.line⟩ :: run fuel l (cs.drop m.length)

end Lexer

def openTokens (source : List Char) : List Lexeme :=
  let cs := (uniformNewlines (String.ofList source)).toList
  Lexer.run (2 * cs.length + 2) {} cs

def tokens (source : List Char) : List Lexeme :=
  match source.getLast? with
  | some '\n' | some '\r' => openTokens source
  | _ => openTokens (source ++ ['\n'])

end KeywordDocs.Source
