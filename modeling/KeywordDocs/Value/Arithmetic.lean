import KeywordDocs.Fault
import KeywordDocs.Number.Quotient
import KeywordDocs.Value.Shown

/-!
# Arithmetic

Numbers of different kinds together: truth values count as integers, and one floating-point number makes
the result one.
-/

namespace KeywordDocs.Value

variable (a b : Value)

def asInt? : Value → Option Int
  | .int n => some n
  | .bool b => some (if b then 1 else 0)
  | .member .integer _ _ (.int n) => some n
  | _ => Option.none

def asFloat? : Value → Option Float
  | .float x => some x
  | .nan _ => some (0.0 / 0.0)
  | v => v.asInt?.bind fun n => Number.divide? n 1

def numeric (onInts : Int → Int → Except Fault Value) (onFloats : Float → Float → Except Fault Value)
  (a b : Value) : Except Fault Value :=
  match a.asInt?, b.asInt?, a.asFloat?, b.asFloat? with
  | some m, some n, _, _ => onInts m n
  | _, _, some x, some y => onFloats x y
  | some _, _, Option.none, some _ => .error .overflow
  | _, some _, some _, Option.none => .error .overflow
  | _, _, _, _ => .error .wrongKind

def add : Except Fault Value := numeric (fun m n => .ok (.int (m + n))) (fun x y => .ok (.float (x + y))) a b

def subtract : Except Fault Value :=
  numeric (fun m n => .ok (.int (m - n))) (fun x y => .ok (.float (x - y))) a b

def multiply : Except Fault Value :=
  numeric (fun m n => .ok (.int (m * n))) (fun x y => .ok (.float (x * y))) a b

def divide : Except Fault Value :=
  numeric
    (fun m n =>
      if n = 0 then .error .divisionByZero
      else match Number.divide? m n with
        | some x => .ok (.float x)
        | Option.none => .error .overflow)
    (fun x y => if y == 0.0 then .error .divisionByZero else .ok (.float (x / y))) a b

def total (vs : List Value) : Except Fault Value := vs.foldlM add (.int 0)

def roundPlaces (places : Nat) (v : Value) : Except Fault Value :=
  match v.asInt?, v with
  | some n, _ => .ok (.int n)
  | _, .float x => .ok (.float (Number.roundPlaces places x))
  | _, .nan n => .ok (.nan n)
  | _, _ => .error .wrongKind

end KeywordDocs.Value
