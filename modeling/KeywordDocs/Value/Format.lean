import KeywordDocs.Value.Arithmetic

/-!
# How Values Are Laid Out

A layout says how a value is written: a width and where in it the value stands, the sign, and the
precision.
-/

namespace KeywordDocs

structure Layout where
  fill : Option Char := none
  /-- Where the value stands: `<`, `>`, `^`, or `=` for after the sign. -/
  align : Option Char := none
  sign : Option Char := none
  showsBase : Bool := false
  width : Nat := 0
  grouping : Option Char := none
  precision : Option Nat := none
  form : Option Char := none

variable (l : Layout)

namespace Layout

def isAlign (c : Char) : Bool := c = '<' || c = '>' || c = '^' || c = '='

def readAlign : List Char → Layout × List Char
  | f :: a :: rest =>
    if isAlign a then ({ fill := some f, align := some a }, rest)
    else if isAlign f then ({ align := some f }, a :: rest)
    else ({}, f :: a :: rest)
  | [a] => if isAlign a then ({ align := some a }, []) else ({}, [a])
  | [] => ({}, [])

def read (cs : List Char) : Except Fault Layout := do
  let (l, cs) := readAlign cs
  let (l, cs) := match cs with
    | c :: rest =>
      if c = '+' || c = '-' || c = ' ' then ({ l with sign := some c }, rest) else (l, c :: rest)
    | [] => (l, [])
  let (l, cs) := match cs with
    | '#' :: rest => ({ l with showsBase := true }, rest)
    | _ => (l, cs)
  let (isZero, cs) := match cs with
    | '0' :: rest => (l.fill.isNone, rest)
    | _ => (false, cs)
  let l := if isZero then { l with fill := some '0', align := l.align <|> some '=' } else l
  let (digits, cs) := cs.span Char.isDigit
  let l := { l with width := Number.natOfDigits digits }
  let (l, cs) := match cs with
    | c :: rest => if c = ',' || c = '_' then ({ l with grouping := some c }, rest) else (l, c :: rest)
    | [] => (l, [])
  let (l, cs) ← match cs with
    | '.' :: rest =>
      match rest.span Char.isDigit with
      | ([], _) => .error .badValue
      | (digits, rest) => pure ({ l with precision := some (Number.natOfDigits digits) }, rest)
    | _ => pure (l, cs)
  match cs with
  | [] => return l
  | [c] => return { l with form := some c }
  | _ => .error .badValue

def place (usual : Char) (sign body : List Char) : List Char :=
  let missing := l.width - (sign.length + body.length)
  let fill := List.replicate missing (l.fill.getD ' ')
  match l.align.getD usual with
  | '<' => sign ++ body ++ fill
  | '^' => fill.take (missing / 2) ++ sign ++ body ++ fill.drop (missing / 2)
  | '=' => sign ++ fill ++ body
  | _ => fill ++ sign ++ body

def signOf (isNegative : Bool) : List Char :=
  if isNegative then ['-']
  else match l.sign with
    | some '+' => ['+']
    | some ' ' => [' ']
    | _ => []

def groupDigits (size : Nat) (mark : Char) (digits : List Char) : List Char :=
  (((List.range digits.length).zip digits.reverse).foldl (fun acc (i, c) =>
    if i ≠ 0 && i % size = 0 then c :: mark :: acc else c :: acc) [])

def groupWhole (body : List Char) : List Char :=
  match l.grouping with
  | none => body
  | some mark =>
    let (whole, rest) := body.span Char.isDigit
    groupDigits 3 mark whole ++ rest

def text (s : String) : Except Fault String :=
  if l.sign.isSome || l.grouping.isSome || l.showsBase || (l.form.any (· ≠ 's')) then
    .error .badValue
  else
    -- Filling with noughts asked for by a nought before the width is on the right of texts.
    let l := if l.align = some '=' && l.fill = some '0' then { l with align := some '<' } else l
    if l.align = some '=' then .error .badValue
    else
      let cs := s.toList
      .ok (String.ofList (l.place '<' [] ((l.precision.map cs.take).getD cs)))

def number (x : Float) : Except Fault String :=
  let finish (isNegative : Bool) (body : List Char) : Except Fault String :=
    .ok (String.ofList (l.place '>' (l.signOf isNegative) (l.groupWhole body)))
  let form := l.form.getD 'r'
  let upper (cs : List Char) := cs.map Char.toUpper
  match Number.exactRatio? x with
  | none =>
    let body := if x.isNaN then "nan".toList else "inf".toList
    finish (x < 0.0) ((if form.isUpper then upper body else body) ++ if form = '%' then ['%'] else [])
  | some (isNegative, r) =>
    let places := l.precision.getD 6
    match form with
    | 'f' | 'F' => finish isNegative (Number.fixed places r)
    | '%' => finish isNegative (Number.fixed places (r.scale10 2) ++ ['%'])
    | 'e' => finish isNegative (Number.scientific places r)
    | 'E' => finish isNegative (upper (Number.scientific places r))
    | 'g' | 'n' => finish isNegative (Number.general places r)
    | 'G' => finish isNegative (upper (Number.general places r))
    | 'r' =>
      match l.precision with
      | none => finish isNegative (Number.ofFloat x.abs).toList
      | some p =>
        let body := Number.general p r
        finish isNegative (if body.contains '.' || body.contains 'e' then body else body ++ ".0".toList)
    | _ => .error .badValue

def integer (n : Int) : Except Fault String :=
  let inBase (base size : Nat) (mark : String) : Except Fault String :=
    let digits := Nat.toDigits base n.natAbs
    let body := match l.grouping with
      | some g => groupDigits size g digits
      | none => digits
    let sign := l.signOf (n < 0) ++ if l.showsBase then mark.toList else []
    .ok (String.ofList (l.place '>' sign body))
  match l.form.getD 'd' with
  | 'e' | 'E' | 'f' | 'F' | 'g' | 'G' | '%' => l.number (Float.ofInt n)
  | form =>
    if l.precision.isSome then .error .badValue
    else match form with
      | 'd' | 'n' => inBase 10 3 ""
      | 'b' => inBase 2 4 "0b"
      | 'o' => inBase 8 4 "0o"
      | 'x' => inBase 16 4 "0x"
      | 'X' => (inBase 16 4 "0X").map fun s => String.ofList (s.toList.map Char.toUpper)
      | 'c' =>
        if n < 0 || 0x110000 ≤ n then .error .overflow
        else .ok (String.ofList (l.place '<' [] [Char.ofNat n.toNat]))
      | _ => .error .badValue

end Layout

def Value.laidOut (layout : List Char) (v : Value) : Except Fault String := do
  if layout.isEmpty then return v.display
  match v with
  | .str s => (← Layout.read layout).text s
  | .float x => (← Layout.read layout).number x
  | .nan _ => (← Layout.read layout).number (0.0 / 0.0)
  | .moment t => return t.write (String.ofList layout)
  | _ =>
    match v.asInt? with
    | some n => (← Layout.read layout).integer n
    | Option.none => .error .wrongKind

end KeywordDocs
