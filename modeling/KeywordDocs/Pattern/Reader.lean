import KeywordDocs.Pattern.Find
import KeywordDocs.Text.CharacterName

/-!
# Reading Patterns

The written form of patterns: a list of branches, each a sequence of items, and a repetition mark belongs to
the item before it.
-/

namespace KeywordDocs.Pattern

open Text

def literal (c : Char) : CharTest := .range c c

def namedClass? : Char → Option CharTest
  | 'd' => some .digit
  | 'D' => some (.not .digit)
  | 'w' => some .word
  | 'W' => some (.not .word)
  | 's' => some .blank
  | 'S' => some (.not .blank)
  | _ => none

def hexValue? (width : Nat) (cs : List Char) : Option (Char × List Char) :=
  let digits := cs.take width
  let isHex (c : Char) := c.isDigit || ('a' ≤ c && c ≤ 'f') || ('A' ≤ c && c ≤ 'F')
  if digits.length = width && digits.all isHex then
    some (Char.ofNat (natOfHexDigits (digits.map Char.toUpper)), cs.drop width)
  else none

def escapedChar (isInClass : Bool) : List Char → Except Fault (Char × List Char)
  | [] => .error .badPattern
  | 'b' :: cs => if isInClass then .ok (Char.ofNat 8, cs) else .error .badPattern
  | 'x' :: cs => (hexValue? 2 cs).elim (.error .badPattern) .ok
  | 'u' :: cs => (hexValue? 4 cs).elim (.error .badPattern) .ok
  | 'U' :: cs => (hexValue? 8 cs).elim (.error .badPattern) .ok
  | '0' :: cs =>
    let digits := (cs.take 2).takeWhile isOctal
    .ok (Char.ofNat (octalValue digits), cs.drop digits.length)
  | c :: cs =>
    match templateEscape? c with
    | some d => .ok (d, cs)
    | none =>
      if c.isDigit then
        let digits := ((c :: cs).take 3).takeWhile isOctal
        if isInClass && !digits.isEmpty && octalValue digits ≤ 255 then
          .ok (Char.ofNat (octalValue digits), (c :: cs).drop digits.length)
        else .error .badPattern
      else if c.isAlpha then .error .badPattern
      else .ok (c, cs)

def classItem : List Char → Except Fault ((CharTest ⊕ Char) × List Char)
  | [] => .error .badPattern
  | '\\' :: c :: cs =>
    match namedClass? c with
    | some t => .ok (.inl t, cs)
    | none => do
      let (d, rest) ← escapedChar true (c :: cs)
      return (.inr d, rest)
  | '\\' :: [] => .error .badPattern
  | c :: cs => .ok (.inr c, cs)

def classItems : Nat → Bool → List Char → Except Fault (List CharTest × List Char)
  | 0, _, _ => .error .badPattern
  | fuel + 1, isFirst, cs => do
    match isFirst, cs with
    | false, ']' :: rest => return ([], rest)
    | _, _ =>
      let (item, rest) ← classItem cs
      match item, rest with
      | _, '-' :: ']' :: rest => return ([single item, literal '-'], rest)
      | .inr low, '-' :: rest =>
        match ← classItem rest with
        | (.inr high, rest) =>
          if high < low then .error .badPattern
          let (more, rest) ← classItems fuel false rest
          return (.range low high :: more, rest)
        | (.inl _, _) => .error .badPattern
      | .inl _, '-' :: _ => .error .badPattern
      | _, rest =>
        let (more, rest) ← classItems fuel false rest
        return (single item :: more, rest)
where
  single : CharTest ⊕ Char → CharTest
    | .inl t => t
    | .inr c => literal c

def readClass (cs : List Char) : Except Fault (CharTest × List Char) := do
  match cs with
  | '^' :: rest =>
    let (items, rest) ← classItems (rest.length + 1) true rest
    return (.not (.oneOf items), rest)
  | _ =>
    let (items, rest) ← classItems (cs.length + 1) true cs
    return (.oneOf items, rest)

def repetition? : List Char → Except Fault (Option (Nat × Option Nat × List Char))
  | '*' :: cs => .ok (some (0, none, cs))
  | '+' :: cs => .ok (some (1, none, cs))
  | '?' :: cs => .ok (some (0, some 1, cs))
  | '\x7b' :: '\x7d' :: _ => .ok none
  | '\x7b' :: cs =>
    let (low, rest) := cs.span Char.isDigit
    let (high, rest, isOpen) := match rest with
      | ',' :: rest =>
        let (high, rest) := rest.span Char.isDigit
        (high, rest, high.isEmpty)
      | _ => (low, rest, low.isEmpty)
    match rest with
    | '\x7d' :: rest =>
      let least := Number.natOfDigits low
      if isOpen then .ok (some (least, none, rest))
      else if Number.natOfDigits high < least then .error .badPattern
      else .ok (some (least, some (Number.natOfDigits high), rest))
    | _ => .ok none
  | _ => .ok none

def isRepeatable : Pattern → Bool
  | .times .. | .start | .finish _ | .boundary _ => false
  | _ => true

def ofItems (items : List Pattern) : Pattern := items.foldl (fun p q => .seq q p) .nothing

def readEscape (groups : Nat) : List Char → Except Fault (Pattern × List Char)
  | 'A' :: cs => .ok (.start, cs)
  | 'Z' :: cs => .ok (.finish false, cs)
  | 'b' :: cs => .ok (.boundary true, cs)
  | 'B' :: cs => .ok (.boundary false, cs)
  | c :: cs =>
    match namedClass? c with
    | some t => .ok (.char t, cs)
    | none =>
      if c.isDigit && c ≠ '0' then
        let (more, rest) := match cs with
          | d :: rest => if d.isDigit then ([d], rest) else ([], cs)
          | [] => ([], [])
        let n := Number.natOfDigits (c :: more)
        if n ≤ groups then .ok (.again n, rest) else .error .badPattern
      else do
        let (d, rest) ← escapedChar false (c :: cs)
        return (.char (literal d), rest)
  | [] => .error .badPattern

mutual

def readBranches : Nat → Nat → List Char → Except Fault (Pattern × Nat × List Char)
  | 0, _, _ => .error .badPattern
  | fuel + 1, groups, cs => do
    let (p, groups, rest) ← readItems fuel groups [] cs
    match rest with
    | '|' :: rest =>
      let (q, groups, rest) ← readBranches fuel groups rest
      return (.either p q, groups, rest)
    | _ => return (p, groups, rest)

def readItems : Nat → Nat → List Pattern → List Char → Except Fault (Pattern × Nat × List Char)
  | 0, _, _, _ => .error .badPattern
  | fuel + 1, groups, items, cs => do
    match cs with
    | [] => return (ofItems items, groups, [])
    | '|' :: _ | ')' :: _ => return (ofItems items, groups, cs)
    | '(' :: '?' :: ':' :: rest => readGroup fuel groups none items rest
    | '(' :: '?' :: _ => .error .badPattern
    | '(' :: rest => readGroup fuel (groups + 1) (some (groups + 1)) items rest
    | '[' :: rest =>
      let (t, rest) ← readClass rest
      readItems fuel groups (.char t :: items) rest
    | '.' :: rest => readItems fuel groups (.char .any :: items) rest
    | '^' :: rest => readItems fuel groups (.start :: items) rest
    | '$' :: rest => readItems fuel groups (.finish true :: items) rest
    | '\\' :: rest =>
      let (p, rest) ← readEscape groups rest
      readItems fuel groups (p :: items) rest
    | c :: after =>
      match ← repetition? cs with
      | none => readItems fuel groups (.char (literal c) :: items) after
      | some (least, most, rest) =>
        match items with
        | p :: items =>
          if !isRepeatable p then .error .badPattern
          else match rest with
            | '?' :: rest => readItems fuel groups (.times p least most false :: items) rest
            | _ => readItems fuel groups (.times p least most true :: items) rest
        | [] => .error .badPattern

def readGroup : Nat → Nat → Option Nat → List Pattern → List Char →
  Except Fault (Pattern × Nat × List Char)
  | 0, _, _, _, _ => .error .badPattern
  | fuel + 1, groups, number, items, cs => do
    let (p, groups, rest) ← readBranches fuel groups cs
    match rest with
    | ')' :: rest => readItems fuel groups (.group number p :: items) rest
    | _ => .error .badPattern

end

end KeywordDocs.Pattern

namespace KeywordDocs

def Matcher.read (text : String) (ignoresCase : Bool := false) : Except Fault Matcher := do
  let cs := text.toList
  let (pattern, groupCount, rest) ← Pattern.readBranches (3 * cs.length + 3) 0 cs
  if rest.isEmpty then return { pattern, groupCount, ignoresCase } else .error .badPattern

end KeywordDocs
