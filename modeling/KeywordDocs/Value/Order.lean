import KeywordDocs.Fault
import KeywordDocs.Value.Shown

/-!
# Equality and Order of Values

Numbers of different kinds are compared by their exact worth, so that one, one point nought and true are
equal.
-/

namespace KeywordDocs

inductive Worth where
  | finite (q : Rat)
  | infinite (negative : Bool)
  | nan (object : Nat)
  deriving DecidableEq

namespace Worth

def ofFloat (x : Float) : Worth :=
  match Number.decompose x with
  | (_, .nan) => .nan 0
  | (negative, .infinite) => .infinite negative
  | (_, .zero) => .finite (.ofInt 0)
  | (negative, .finite b) =>
    .finite (mkRat (if negative then -(b.ratio.num : Int) else b.ratio.num) b.ratio.den)

def lt : Worth → Worth → Bool
  | .finite p, .finite q => p.blt q
  | .infinite a, .infinite b => a && !b
  | .infinite a, .finite .. => a
  | .finite .., .infinite b => !b
  | _, _ => false

end Worth

inductive Essence where
  | none
  | ellipsis
  | number (w : Worth)
  | complex (re im : Worth)
  | text (s : String)
  | bytes (bs : List UInt8)
  | kind (name : String)
  | member (enumeration name : String)
  | moment (t : Moment)
  | object (kindName shown : String)
  deriving DecidableEq

def Essence.isProper : Essence → Bool
  | .number (.nan _) | .complex (.nan _) _ | .complex _ (.nan _) => false
  | _ => true

namespace Value

def worth? : Value → Option Worth
  | .bool b => some (.finite (.ofInt (if b then 1 else 0)))
  | .int n => some (.finite (.ofInt n))
  | .float x => some (Worth.ofFloat x)
  | .nan n => some (.nan (n + 1))
  | .member .integer _ _ (.int n) => some (.finite (.ofInt n))
  | _ => Option.none

def asText? : Value → Option String
  | .str s => some s
  | .member .text _ _ (.str s) => some s
  | _ => Option.none

def essence? (v : Value) : Option Essence :=
  match v.worth?, v.asText? with
  | some w, _ => some (.number w)
  | _, some s => some (.text s)
  | _, _ =>
    match v with
    | .none => some .none
    | .ellipsis => some .ellipsis
    | .complex re im => some (.complex (.ofFloat re) (.ofFloat im))
    | .bytes bs => some (.bytes bs)
    | .kind name => some (.kind name)
    | .member _ e name _ => some (.member e name)
    | .moment t => some (.moment t)
    | .object k shown => some (.object k shown)
    | _ => Option.none

def identical (a b : Value) : Bool := a.essence?.isSome && a.essence? = b.essence?

def sameScalar (a b : Value) : Bool := identical a b && a.essence?.all Essence.isProper

mutual

def same : Value → Value → Bool
  | .list as, b => match b with
    | .list bs => sameItems as bs
    | _ => false
  | .tuple as, b => match b with
    | .tuple bs => sameItems as bs
    | _ => false
  | .set as, b => match b with
    | .set bs => as.length == bs.length && allAmong as bs
    | _ => false
  | .dict as, b => match b with
    | .dict bs => as.length == bs.length && sameEntries as bs
    | _ => false
  | a, b => sameScalar a b

def sameItems : List Value → List Value → Bool
  | [], [] => true
  | a :: as, b :: bs => (identical a b || same a b) && sameItems as bs
  | _, _ => false

def allAmong : List Value → List Value → Bool
  | [], _ => true
  | a :: as, bs => (bs.any fun b => identical a b || same a b) && allAmong as bs

def sameEntries : List (Value × Value) → List (Value × Value) → Bool
  | [], _ => true
  | (k, v) :: rest, bs =>
    ((bs.find? fun b => identical k b.1 || same k b.1).any fun b => identical v b.2 || same v b.2) &&
      sameEntries rest bs

end

def alike (a b : Value) : Bool := identical a b || same a b

mutual

def less : Value → Value → Except Fault Bool
  | .list as, .list bs => lessItems as bs
  | .tuple as, .tuple bs => lessItems as bs
  | a, b =>
    match a.worth?, b.worth?, a.asText?, b.asText? with
    | some x, some y, _, _ => .ok (x.lt y)
    | _, _, some s, some t => .ok (decide (s < t))
    | _, _, _, _ => .error .wrongKind

def lessItems : List Value → List Value → Except Fault Bool
  | [], [] => .ok false
  | [], _ :: _ => .ok true
  | _ :: _, [] => .ok false
  | a :: as, b :: bs => if same a b then lessItems as bs else less a b

end

def insertSorted (v : Value) : List Value → Except Fault (List Value)
  | [] => .ok [v]
  | w :: ws => do
    if ← less v w then return v :: w :: ws
    return w :: (← insertSorted v ws)

def sort (vs : List Value) : Except Fault (List Value) := vs.foldlM (fun sorted v => insertSorted v sorted) []

mutual

def isHashable : Value → Bool
  | .list _ | .set _ | .dict _ => false
  | .tuple items => areHashable items
  | _ => true

def areHashable : List Value → Bool
  | [] => true
  | v :: vs => isHashable v && areHashable vs

end

def distinct (vs : List Value) : Except Fault (List Value) :=
  vs.foldlM (fun seen v =>
    if !isHashable v then .error .wrongKind
    else if seen.any fun w => alike w v then .ok seen
    else .ok (seen ++ [v])) []

end Value

end KeywordDocs
