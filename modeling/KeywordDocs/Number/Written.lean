import KeywordDocs.Text.Identifier

/-!
# Written Numbers

How numbers are spelled in documentation and in data files, and how decimals are read.
-/

namespace KeywordDocs.Number

variable (x : Float)

structure Binary where
  mantissa : Nat
  exponent : Int

variable (b : Binary)

structure Decimal where
  digits : Nat
  exponent : Int

structure Ratio where
  num : Nat
  den : Nat

variable (r : Ratio) (e : Int)

def Ratio.scale2 : Ratio :=
  if 0 ≤ e then ⟨r.num * Nat.pow 2 e.toNat, r.den⟩
  else ⟨r.num, r.den * Nat.pow 2 (-e).toNat⟩

def Ratio.scale10 : Ratio :=
  if 0 ≤ e then ⟨r.num * Nat.pow 10 e.toNat, r.den⟩
  else ⟨r.num, r.den * Nat.pow 10 (-e).toNat⟩

def leadingZeros : Nat → Nat → Nat → Nat → Nat
  | 0, j, _, _ => j
  | bound + 1, j, num, den => if den ≤ num then j else leadingZeros bound (j + 1) (num * 10) den

def Ratio.exponent10 : Int :=
  if r.den ≤ r.num then ((Nat.toDigits 10 (r.num / r.den)).length : Int) - 1
  else -(leadingZeros 400 0 r.num r.den : Int)

def roundDiv (num den : Nat) : Nat :=
  let low := num / den
  let twice := 2 * (num % den)
  if den < twice || (den = twice && low % 2 = 1) then low + 1 else low

def Ratio.exponent2 : Int :=
  let e : Int := (r.num.log2 : Int) - r.den.log2
  let s := r.scale2 (-e)
  if s.num < s.den then e - 1 else e

def infiniteBits : Nat := 2047 * Nat.pow 2 52

def Ratio.bits : Nat :=
  -- The weight of the last binary place.
  let unit : Int := max (r.exponent2 - 52) (-1074)
  let s := r.scale2 (-unit)
  min ((unit + 1074).toNat * Nat.pow 2 52 + roundDiv s.num s.den) infiniteBits

def Decimal.bits (d : Decimal) : Nat :=
  if d.digits = 0 ∨ d.exponent + d.digits.log2 < -400 then 0
  else if 400 < d.exponent then infiniteBits
  else (Ratio.scale10 ⟨d.digits, 1⟩ d.exponent).bits

def ofBits (negative : Bool) (bits : Nat) : Float :=
  Float.ofBits (.ofNat (if negative then Nat.pow 2 63 + bits else bits))

def readDecimal (negative : Bool) (digits : Nat) (exponent : Int) : Float :=
  ofBits negative (Decimal.bits ⟨digits, exponent⟩)

def Binary.ratio : Ratio := Ratio.scale2 ⟨b.mantissa, 1⟩ b.exponent

def Binary.bits : Nat := (b.exponent + 1074).toNat * Nat.pow 2 52 + b.mantissa

def Decimal.reduce : Nat → Decimal → Decimal
  | 0, d => d
  | n + 1, d => if d.digits % 10 = 0 ∧ d.digits ≠ 0 then reduce n ⟨d.digits / 10, d.exponent + 1⟩ else d

def Binary.onGrid (k : Int) : Option Decimal :=
  let v := b.ratio.scale10 (-k)
  let low := v.num / v.den
  let rest := 2 * (v.num % v.den)
  let below := Decimal.reduce 20 ⟨low, k⟩
  let above := Decimal.reduce 20 ⟨low + 1, k⟩
  if below.bits = b.bits then
    if above.bits = b.bits && (v.den < rest || (v.den = rest && low % 2 = 1)) then some above
    else some below
  else if above.bits = b.bits then some above
  else none

def Binary.exact : Decimal :=
  if 0 ≤ b.exponent then ⟨b.mantissa * Nat.pow 2 b.exponent.toNat, 0⟩
  else ⟨b.mantissa * Nat.pow 5 (-b.exponent).toNat, b.exponent⟩

def Binary.searchGrids (b : Binary) (e : Int) : Nat → Nat → Decimal
  | 0, _ => b.exact
  | left + 1, n =>
    match b.onGrid (e - n + 1) with
    | some d => d
    | none => searchGrids b e left (n + 1)

def Binary.shortest : Decimal := b.searchGrids b.ratio.exponent10 17 1

inductive Shape where
  | nan
  | infinite
  | zero
  | finite (b : Binary)

def decompose : Bool × Shape :=
  let bits := x.toBits.toNat
  let negative := bits / Nat.pow 2 63 = 1
  let exponent : Nat := bits / Nat.pow 2 52 % 2048
  let fraction : Nat := bits % Nat.pow 2 52
  if exponent = 2047 then (negative, if fraction = 0 then .infinite else .nan)
  else if exponent = 0 then
    (negative, if fraction = 0 then .zero else .finite ⟨fraction, -1074⟩)
  else (negative, .finite ⟨fraction + Nat.pow 2 52, (exponent : Int) - 1075⟩)

def exactRatio? : Option (Bool × Ratio) :=
  match decompose x with
  | (neg, .zero) => some (neg, ⟨0, 1⟩)
  | (neg, .finite b) => some (neg, b.ratio)
  | _ => none

def digitsOf (n : Nat) : List Char := Nat.toDigits 10 n

def ofInt (n : Int) : String :=
  if n < 0 then String.ofList ('-' :: digitsOf n.natAbs) else String.ofList (digitsOf n.natAbs)

def padZeros (width : Nat) (cs : List Char) : List Char := List.replicate (width - cs.length) '0' ++ cs

def exponentMark : List Char := 'e' :: (if e < 0 then '-' else '+') :: padZeros 2 (digitsOf e.natAbs)

def ofDecimal (d : Decimal) : List Char :=
  let ds := digitsOf d.digits
  let point : Int := ds.length + d.exponent
  if point ≤ -4 ∨ 16 < point then
    match ds with
    | [] => []
    | [c] => c :: exponentMark (point - 1)
    | c :: rest => c :: '.' :: rest ++ exponentMark (point - 1)
  else if point ≤ 0 then '0' :: '.' :: List.replicate (-point).toNat '0' ++ ds
  else if ds.length ≤ point.toNat then
    ds ++ List.replicate (point.toNat - ds.length) '0' ++ ['.', '0']
  else ds.take point.toNat ++ '.' :: ds.drop point.toNat

def ofFloat : String :=
  let (negative, shape) := decompose x
  let sign := if negative then "-" else ""
  match shape with
  | .nan => "nan"
  | .infinite => sign ++ "inf"
  | .zero => sign ++ "0.0"
  | .finite b => sign ++ String.ofList (ofDecimal b.shortest)

def natOfDigits (cs : List Char) : Nat := cs.foldl (fun n c => n * 10 + (c.toNat - 48)) 0

open Text

def readDigitsFrom (n : Nat) : List Char → Option Nat
  | [] => some n
  | '_' :: c :: cs => if isDigit c then readDigitsFrom (n * 10 + digitValue c) cs else none
  | c :: cs => if isDigit c then readDigitsFrom (n * 10 + digitValue c) cs else none

def readDigits? : List Char → Option Nat
  | [] => none
  | c :: cs => if isDigit c then readDigitsFrom (digitValue c) cs else none

def readInt? (s : String) : Option Int :=
  match trimChars s.toList with
  | '-' :: cs => (readDigits? cs).map fun n => -(n : Int)
  | '+' :: cs => (readDigits? cs).map Int.ofNat
  | cs => (readDigits? cs).map Int.ofNat

end KeywordDocs.Number
