import KeywordDocs.Json.Basic
import KeywordDocs.Number.Written

/-!
# Reading JSON

A reader that says what it missed and where. It is a little wider than the standard: the three numbers
that JSON lacks are read by their names.
-/

namespace KeywordDocs.Json

inductive Missing where
  | value
  | propertyName
  | colon
  | comma
  | noMoreData
  | noByteOrderMark
  | closingQuote
  | noControlCharacter
  | knownEscape
  | hexEscape

def Missing.words : Missing → String
  | .value => "Expecting value"
  | .propertyName => "Expecting property name enclosed in double quotes"
  | .colon => "Expecting ':' delimiter"
  | .comma => "Expecting ',' delimiter"
  | .noMoreData => "Extra data"
  | .noByteOrderMark => "Unexpected UTF-8 BOM (decode using utf-8-sig)"
  | .closingQuote => "Unterminated string starting at"
  | .noControlCharacter => "Invalid control character at"
  | .knownEscape => "Invalid \\escape"
  | .hexEscape => "Invalid \\uXXXX escape"

structure ReadError where
  missing : Missing
  position : Nat

def ReadError.message (e : ReadError) (s : String) : String :=
  let before := s.toList.take e.position
  let line := before.count '\n' + 1
  let column := (before.reverse.takeWhile (· ≠ '\n')).length + 1
  e.missing.words ++ ": line " ++ Number.ofInt line ++ " column " ++ Number.ofInt column ++
    " (char " ++ Number.ofInt e.position ++ ")"

abbrev Step (α : Type) := α × Nat × List Char

def isSpace (c : Char) : Bool := c = ' ' || c = '\t' || c = '\n' || c = '\r'

def skipSpace (pos : Nat) : List Char → Nat × List Char
  | [] => (pos, [])
  | c :: cs => if isSpace c then skipSpace (pos + 1) cs else (pos, c :: cs)

def hexValue? (c : Char) : Option Nat :=
  if '0' ≤ c ∧ c ≤ '9' then some (c.toNat - 48)
  else if 'a' ≤ c ∧ c ≤ 'f' then some (c.toNat - 87)
  else if 'A' ≤ c ∧ c ≤ 'F' then some (c.toNat - 55)
  else none

def hexUnit? (a b c d : Char) : Option Nat := do
  return (((← hexValue? a) * 16 + (← hexValue? b)) * 16 + (← hexValue? c)) * 16 + (← hexValue? d)

def shortEscape? : Char → Option Char
  | '"' => some '"'
  | '\\' => some '\\'
  | '/' => some '/'
  | 'b' => some (Char.ofNat 8)
  | 'f' => some (Char.ofNat 12)
  | 'n' => some '\n'
  | 'r' => some '\r'
  | 't' => some '\t'
  | _ => none

def charOfUnit (n : Nat) : Char :=
  if 55296 ≤ n ∧ n ≤ 57343 then Char.ofNat 65533 else Char.ofNat n

def readString (start : Nat) (pos : Nat) (acc : List Char) : List Char → Except ReadError (Step String)
  | [] => .error ⟨.closingQuote, start⟩
  | '"' :: cs => .ok (String.ofList acc.reverse, pos + 1, cs)
  | '\\' :: 'u' :: a :: b :: c :: d :: '\\' :: 'u' :: e :: f :: g :: h :: cs =>
    match hexUnit? a b c d with
    | none => .error ⟨.hexEscape, pos + 1⟩
    | some hi =>
      if 55296 ≤ hi ∧ hi ≤ 56319 ∧ !cs.isEmpty then
        match hexUnit? e f g h with
        | none => .error ⟨.hexEscape, pos + 7⟩
        | some lo =>
          if 56320 ≤ lo ∧ lo ≤ 57343 then
            let n := 65536 + (hi - 55296) * 1024 + (lo - 56320)
            readString start (pos + 12) (Char.ofNat n :: acc) cs
          else
            readString start (pos + 6) (charOfUnit hi :: acc) ('\\' :: 'u' :: e :: f :: g :: h :: cs)
      else
        readString start (pos + 6) (charOfUnit hi :: acc) ('\\' :: 'u' :: e :: f :: g :: h :: cs)
  | '\\' :: 'u' :: a :: b :: c :: d :: x :: cs =>
    match hexUnit? a b c d with
    | none => .error ⟨.hexEscape, pos + 1⟩
    | some n => readString start (pos + 6) (charOfUnit n :: acc) (x :: cs)
  | '\\' :: 'u' :: _ => .error ⟨.hexEscape, pos + 1⟩
  | ['\\'] => .error ⟨.closingQuote, start⟩
  | '\\' :: c :: cs =>
    match shortEscape? c with
    | none => .error ⟨.knownEscape, pos⟩
    | some e => readString start (pos + 2) (e :: acc) cs
  | c :: cs =>
    if c.toNat < 32 then .error ⟨.noControlCharacter, pos⟩
    else readString start (pos + 1) (c :: acc) cs

def digitRun (cs : List Char) : List Char × List Char := cs.span Char.isDigit

def readExponentSign : List Char → Int × Nat × List Char
  | '+' :: r => (1, 2, r)
  | '-' :: r => (-1, 2, r)
  | r => (1, 1, r)

def readExponent : List Char → Option (Int × Nat × List Char)
  | c :: cs =>
    if c = 'e' || c = 'E' then
      let (sign, width, rest) := readExponentSign cs
      match digitRun rest with
      | ([], _) => none
      | (ds, rest) => some (sign * Number.natOfDigits ds, width + ds.length, rest)
    else none
  | [] => none

def readSign : List Char → Bool × List Char
  | '-' :: r => (true, r)
  | r => (false, r)

def readWhole : List Char → List Char × List Char
  | '0' :: r => (['0'], r)
  | r => digitRun r

def readFraction : List Char → List Char × List Char
  | '.' :: r =>
    match digitRun r with
    | ([], _) => ([], '.' :: r)
    | (fs, r) => (fs, r)
  | r => ([], r)

def readNumber (start : Nat) (cs : List Char) : Except ReadError (Step Json) :=
  let (negative, body) := readSign cs
  match readWhole body with
  | ([], _) => .error ⟨.value, start⟩
  | (ds, rest) =>
    let width := ds.length + (if negative then 1 else 0)
    let (fraction, afterFraction) := readFraction rest
    let width := if fraction.isEmpty then width else width + fraction.length + 1
    match readExponent afterFraction with
    | some (e, n, rest) =>
      let x := Number.readDecimal negative (Number.natOfDigits (ds ++ fraction)) (e - fraction.length)
      .ok (.float x, start + width + n, rest)
    | none =>
      if fraction.isEmpty then
        let n : Int := Number.natOfDigits ds
        .ok (.int (if negative then -n else n), start + width, afterFraction)
      else
        let x := Number.readDecimal negative (Number.natOfDigits (ds ++ fraction)) (-(fraction.length : Int))
        .ok (.float x, start + width, afterFraction)

def namedValues : List (String × Json) :=
  [("null", .null), ("true", .bool true), ("false", .bool false), ("NaN", .float (0.0 / 0.0)),
    ("Infinity", .float (1.0 / 0.0)), ("-Infinity", .float (-1.0 / 0.0))]

def readScalar (pos : Nat) (cs : List Char) : Except ReadError (Step Json) :=
  match namedValues.find? fun entry => entry.1.toList.isPrefixOf cs with
  | some (name, v) => .ok (v, pos + name.length, cs.drop name.length)
  | none => readNumber pos cs

mutual

def readValue : Nat → Nat → List Char → Except ReadError (Step Json)
  | 0, pos, _ => .error ⟨.value, pos⟩
  | fuel + 1, pos, cs =>
    match cs with
    | [] => .error ⟨.value, pos⟩
    | '"' :: rest => do
      let (s, pos, rest) ← readString pos (pos + 1) [] rest
      return (.str s, pos, rest)
    | '[' :: rest =>
      let (pos, rest) := skipSpace (pos + 1) rest
      match rest with
      | ']' :: rest => .ok (.arr [], pos + 1, rest)
      | rest => readItems fuel pos [] rest
    | '\x7b' :: rest =>
      let (pos, rest) := skipSpace (pos + 1) rest
      match rest with
      | '\x7d' :: rest => .ok (.obj [], pos + 1, rest)
      | rest => readMembers fuel pos [] rest
    | rest => readScalar pos rest

def readItems : Nat → Nat → List Json → List Char → Except ReadError (Step Json)
  | 0, pos, _, _ => .error ⟨.value, pos⟩
  | fuel + 1, pos, acc, cs => do
    let (v, pos, rest) ← readValue fuel pos cs
    let (pos, rest) := skipSpace pos rest
    match rest with
    | ']' :: rest => return (.arr (v :: acc).reverse, pos + 1, rest)
    | ',' :: rest =>
      let (pos, rest) := skipSpace (pos + 1) rest
      readItems fuel pos (v :: acc) rest
    | _ => .error ⟨.comma, pos⟩

def readMembers : Nat → Nat → List (String × Json) → List Char → Except ReadError (Step Json)
  | 0, pos, _, _ => .error ⟨.value, pos⟩
  | fuel + 1, pos, acc, cs =>
    match cs with
    | '"' :: rest => do
      let (key, pos, rest) ← readString pos (pos + 1) [] rest
      let (pos, rest) := skipSpace pos rest
      match rest with
      | ':' :: rest =>
        let (pos, rest) := skipSpace (pos + 1) rest
        let (v, pos, rest) ← readValue fuel pos rest
        let (pos, rest) := skipSpace pos rest
        let acc := setMember key v acc
        match rest with
        | '\x7d' :: rest => return (.obj acc, pos + 1, rest)
        | ',' :: rest =>
          let (pos, rest) := skipSpace (pos + 1) rest
          readMembers fuel pos acc rest
        | _ => .error ⟨.comma, pos⟩
      | _ => .error ⟨.colon, pos⟩
    | _ => .error ⟨.propertyName, pos⟩

end

def read (s : String) : Except ReadError Json :=
  let cs := s.toList
  match cs with
  | '\ufeff' :: _ => .error ⟨.noByteOrderMark, 0⟩
  | _ => do
    let (pos, rest) := skipSpace 0 cs
    let (v, pos, rest) ← readValue (2 * cs.length + 2) pos rest
    let (pos, rest) := skipSpace pos rest
    if rest.isEmpty then return v else .error ⟨.noMoreData, pos⟩

end KeywordDocs.Json
