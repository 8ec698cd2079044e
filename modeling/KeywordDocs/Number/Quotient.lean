import KeywordDocs.Number.Written

/-!
# Rounded Numbers

The floating-point number nearest to a quotient, and floating-point numbers rounded to so many decimal
places or significant digits.
-/

namespace KeywordDocs.Number

variable (places num : Nat) (r : Ratio) (den : Nat)

def nearest? : Option Float :=
  let bits := if num = 0 then 0 else Ratio.bits ⟨num, den⟩
  if bits = infiniteBits then none else some (ofBits false bits)

def divide? (m n : Int) : Option Float :=
  if n = 0 then none
  else (nearest? m.natAbs n.natAbs).map fun x => if (m < 0) != (n < 0) then -x else x

def roundPlaces (x : Float) : Float :=
  match exactRatio? x with
  | none => x
  | some (negative, r) =>
    let r := r.scale10 places
    readDecimal negative (roundDiv r.num r.den) (-places)

def truncate? (x : Float) : Option Int :=
  (exactRatio? x).map fun (negative, r) =>
    let n : Int := r.num / r.den
    if negative then -n else n

def pointed (digits : List Char) : List Char :=
  let digits := padZeros (places + 1) digits
  let whole := digits.take (digits.length - places)
  if places = 0 then whole else whole ++ '.' :: digits.drop (digits.length - places)

def fixed : List Char :=
  let r := r.scale10 places
  pointed places (digitsOf (roundDiv r.num r.den))

def significant : List Char × Int :=
  if r.num = 0 then (List.replicate (places + 1) '0', 0)
  else
    let e := r.exponent10
    let s := r.scale10 (places - e)
    let digits := digitsOf (roundDiv s.num s.den)
    -- Rounding up can give one digit more.
    if places + 1 < digits.length then (digits.dropLast, e + 1) else (digits, e)

def scientific : List Char :=
  let (digits, e) := significant places r
  let mantissa := match digits with
    | c :: rest => if rest.isEmpty then [c] else c :: '.' :: rest
    | [] => []
  mantissa ++ exponentMark e

def withoutNoughts (cs : List Char) : List Char :=
  if cs.contains '.' then
    let kept := (cs.reverse.dropWhile (· = '0'))
    (match kept with
      | '.' :: rest => rest
      | _ => kept).reverse
  else cs

def general (precision : Nat) (r : Ratio) : List Char :=
  let p := max precision 1
  let (digits, e) := significant (p - 1) r
  if -4 ≤ e && e < p then
    withoutNoughts (if 0 ≤ e then pointed (p - 1 - e.toNat) digits
      else pointed (p - 1 + (-e).toNat) digits)
  else
    let mantissa := match digits with
      | c :: rest => withoutNoughts (c :: '.' :: rest)
      | [] => []
    mantissa ++ exponentMark e

end KeywordDocs.Number
