import KeywordDocs.Value.Arithmetic

/-!
# Spans of Time

A span is a whole number of microseconds. Fractions of a unit are split into whole microseconds and a
rest, which is rounded with the even neighbour for ties.
-/

namespace KeywordDocs

open Calendar

structure Span where
  micros : Int

variable (t : Moment) (s : Span)

def Number.roundInt (num : Int) (den : Nat) : Int :=
  let n : Int := Number.roundDiv num.natAbs den
  if num < 0 then -n else n

def Number.signedRatio? (x : Float) : Option (Int × Nat) :=
  (Number.exactRatio? x).map fun (negative, r) => (if negative then -(r.num : Int) else r.num, r.den)

def Span.mostDays : Int := 999999999

def Span.check (n : Int) : Except Fault Span :=
  let days := n.fdiv microsPerDay
  if days < -Span.mostDays || Span.mostDays < days then .error .overflow else .ok ⟨n⟩

def Span.ofFraction (fraction : Float) (unit : Nat) : Int :=
  match Number.signedRatio? (fraction * Float.ofNat unit) with
  | some (num, den) =>
    let whole := num.tdiv den
    -- The rest is less than one, so that rounding it decides on one microsecond at most.
    let up := Number.roundInt (num - whole * den) den
    let isTie := 2 * (num - whole * den).natAbs = den
    if isTie then whole + (if whole % 2 = 0 then 0 else if num < 0 then -1 else 1) else whole + up
  | none => 0

def Span.ofUnits (unit : Nat) (count : Value) : Except Fault Span :=
  match count.asInt? with
  | some n => Span.check (n * unit)
  | none =>
    match count with
    | .float x =>
      match Number.truncate? x with
      | none => .error (if x.isNaN then .badValue else .overflow)
      | some n => Span.check (n * unit + Span.ofFraction (x - Float.ofInt n) unit)
    | _ => .error .wrongKind

def Moment.add : Except Fault Moment :=
  match Moment.ofMicros? (t.micros + s.micros) with
  | some u => .ok u
  | none => .error .overflow

def Moment.distance (t u : Moment) : Span := ⟨(u.micros - t.micros).natAbs⟩

def Span.days : Int := s.micros.fdiv microsPerDay

def Span.seconds : Float := (Number.divide? s.micros 1000000).getD 0.0

def Moment.epoch : Moment := ⟨1970, 1, 1, 0, 0, 0, 0⟩

def Moment.timestamp : Float :=
  let whole := (t.micros - Moment.epoch.micros).fdiv 1000000
  Float.ofInt whole + Float.ofNat t.micro / 1000000.0

def Moment.ofTimestamp (seconds : Value) : Except Fault Moment :=
  let micros : Except Fault Int := match seconds.asInt? with
    | some n => .ok (n * 1000000)
    | none =>
      match seconds with
      | .float x =>
        match Number.signedRatio? x with
        | some (num, den) => .ok (Number.roundInt (num * 1000000) den)
        | none => .error (if x.isNaN then .badValue else .overflow)
      | _ => .error .wrongKind
  match micros with
  | .error f => .error f
  | .ok n =>
    match Moment.ofMicros? (Moment.epoch.micros + n) with
    | some t => .ok t
    | none => .error (if n.natAbs < Nat.pow 2 63 * 1000000 then .badValue else .overflow)

end KeywordDocs
