import KeywordDocs.Source.Parser
import KeywordDocs.Text.CharacterName
import KeywordDocs.Text.Scan

/-!
# Literals

What the literals of a source stand for: quoted texts with their escapes, and numbers.
-/

namespace KeywordDocs.Source

open Text

variable (cs : List Char)

def isHexDigit (c : Char) : Bool := c.isDigit || ('a' ≤ c && c ≤ 'f') || ('A' ≤ c && c ≤ 'F')

def isOctalDigit (c : Char) : Bool := '0' ≤ c && c ≤ '7'

def shortEscape? : Char → Option Char
  | '\\' => some '\\'
  | '\'' => some '\''
  | '"' => some '"'
  | 'a' => some (Char.ofNat 7)
  | 'b' => some (Char.ofNat 8)
  | 'f' => some (Char.ofNat 12)
  | 'n' => some '\n'
  | 'r' => some '\r'
  | 't' => some '\t'
  | 'v' => some (Char.ofNat 11)
  | _ => none

def hexValue? (width : Nat) (cs : List Char) : Option Nat :=
  let digits := cs.take width
  if digits.length = width && digits.all isHexDigit then some (natOfHexDigits digits) else none

def natOfOctalDigits : Nat := cs.foldl (fun n c => n * 8 + (c.toNat - 48)) 0

def charOfCode? (n : Nat) : Option Char :=
  if n.isValidChar then some (Char.ofNat n) else none

def namedCharacter : Option Char × Nat :=
  match cs with
  | '{' :: rest =>
    match rest.span (· ≠ '}') with
    | (name, '}' :: _) => (characterNamed? (String.ofList name), name.length + 2)
    | (name, _) => (none, name.length + 1)
  | _ => (none, 0)

def escapeOf : Option (List Char) × Nat :=
  match cs with
  | '\n' :: _ => (some [], 1)
  | 'x' :: rest => (((hexValue? 2 rest).bind charOfCode?).map ([·]), 3)
  | 'u' :: rest => (((hexValue? 4 rest).bind charOfCode?).map ([·]), 5)
  | 'U' :: rest => (((hexValue? 8 rest).bind charOfCode?).map ([·]), 9)
  | 'N' :: rest =>
    let (c, n) := namedCharacter rest
    (c.map ([·]), n + 1)
  | c :: _ =>
    if isOctalDigit c then
      let digits := (cs.take 3).takeWhile isOctalDigit
      (some [Char.ofNat (natOfOctalDigits digits)], digits.length)
    else match shortEscape? c with
      | some e => (some [e], 1)
      | none => (some ['\\', c], 1)
  | [] => (some ['\\'], 0)

def textEscape : Recogniser (Option (List Char))
  | _, '\\' :: cs =>
    let (found, n) := escapeOf cs
    some (found, n + 1)
  | _, _ => none

def assembled : List (Piece (Option (List Char))) → Option (List Char)
  | [] => some []
  | .plain c :: ps => (assembled ps).map (c :: ·)
  | .found none :: _ => none
  | .found (some cs) :: ps => (assembled ps).map (cs ++ ·)

def unescape : Option String := (assembled (scan textEscape cs)).map String.ofList

def byteEscape : Recogniser (Option (List Char))
  | _, '\\' :: cs =>
    match cs with
    | 'u' :: _ | 'U' :: _ | 'N' :: _ => some (some ('\\' :: cs.take 1), 2)
    | c :: _ =>
      if isOctalDigit c then
        let digits := (cs.take 3).takeWhile isOctalDigit
        some (some [Char.ofNat (natOfOctalDigits digits % 256)], digits.length + 1)
      else
        let (found, n) := escapeOf cs
        some (found, n + 1)
    | [] => some (some ['\\'], 1)
  | _, _ => none

def unescapeBytes (raw : Bool) (cs : List Char) : Option (List UInt8) :=
  if cs.any (128 ≤ ·.toNat) then none
  else
    let chars := if raw then some cs else assembled (scan byteEscape cs)
    chars.map fun found => found.map (·.toNat.toUInt8)

def digitRun (ok : Char → Bool) : List Char → Option (List Char × List Char)
  | [] => some ([], [])
  | '_' :: cs =>
    match cs with
    | c :: _ => if ok c then digitRun ok cs else none
    | [] => none
  | c :: cs =>
    if ok c then (digitRun ok cs).map fun (ds, rest) => (c :: ds, rest)
    else some ([], c :: cs)

def mayFollowNumber : Bool :=
  ["and", "else", "for", "if", "in", "is", "or", "not"].any (fun w => w.toList.isPrefixOf cs) ||
    match cs with
    | [] => true
    | c :: _ => !(c.isAlphanum || c == '_' || 128 ≤ c.toNat)

def basedNumber (ok : Char → Bool) (value : List Char → Nat) (cs : List Char) :
  Option (Value × List Char) := do
  let (digits, rest) ← digitRun ok cs
  if digits.isEmpty || !mayFollowNumber rest then none
  else some (.int (value digits), rest)

def fractionPart : Option (Option (List Char) × List Char) :=
  match cs with
  | '.' :: rest =>
    match rest with
    | c :: _ => if c.isDigit then (digitRun Char.isDigit rest).map fun (ds, r) => (some ds, r)
      else some (some [], rest)
    | [] => some (some [], [])
  | _ => some (none, cs)

def exponentPart : Option (Option Int × List Char) :=
  match cs with
  | e :: rest =>
    if e == 'e' || e == 'E' then
      match rest with
      | s :: more =>
        if s == '+' || s == '-' then
          match more with
          | d :: _ =>
            if d.isDigit then (digitRun Char.isDigit more).map fun (ds, r) =>
              (some (if s == '-' then -(Number.natOfDigits ds : Int) else Number.natOfDigits ds), r)
            else none
          | [] => none
        else if s.isDigit then
          (digitRun Char.isDigit rest).map fun (ds, r) => (some (Number.natOfDigits ds : Int), r)
        else some (none, cs)
      | [] => some (none, cs)
    else some (none, cs)
  | [] => some (none, cs)

def decimalNumber : Option (Value × List Char) := do
  let (whole, rest) ← if (cs.headD ' ').isDigit then digitRun Char.isDigit cs else some ([], cs)
  let (fraction, rest) ← fractionPart rest
  let (exponent, rest) ← exponentPart rest
  let float := Number.readDecimal false (Number.natOfDigits (whole ++ fraction.getD []))
    (exponent.getD 0 - (fraction.getD []).length)
  match rest with
  | 'j' :: after | 'J' :: after =>
    if mayFollowNumber after then some (.complex 0.0 float, after) else none
  | _ =>
    if !mayFollowNumber rest then none
    else if fraction.isSome || exponent.isSome then some (.float float, rest)
    else if whole.head? = some '0' && whole.any (· ≠ '0') then none
    else some (.int (Number.natOfDigits whole), rest)

def readNumber : Option (Value × List Char) :=
  match cs with
  | '0' :: c :: rest =>
    if c == 'x' || c == 'X' then basedNumber isHexDigit natOfHexDigits rest
    else if c == 'o' || c == 'O' then basedNumber isOctalDigit natOfOctalDigits rest
    else if c == 'b' || c == 'B' then
      basedNumber (fun d => d == '0' || d == '1')
        (fun ds => ds.foldl (fun n d => n * 2 + (d.toNat - 48)) 0) rest
    else decimalNumber cs
  | _ => decimalNumber cs

end KeywordDocs.Source
