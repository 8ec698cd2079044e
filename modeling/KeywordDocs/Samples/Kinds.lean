import KeywordDocs.Text.Search
import KeywordDocs.Value.Arithmetic
import KeywordDocs.Value.Order

/-!
# Kinds of Values

What a keyword may do with a value depends on the value's kind.
-/

namespace KeywordDocs.Samples

def entryOf (key : Value) (entries : List (Value × Value)) : Option Value :=
  (entries.find? fun e => key.alike e.1).map Prod.snd

def setEntry (key v : Value) : List (Value × Value) → List (Value × Value)
  | [] => [(key, v)]
  | (k, old) :: rest => if key.alike k then (k, v) :: rest else (k, old) :: setEntry key v rest

def setEntries (entries others : List (Value × Value)) : List (Value × Value) :=
  others.foldl (fun es (k, v) => setEntry k v es) entries

def addMissing (entries others : List (Value × Value)) : List (Value × Value) :=
  others.foldl (fun es (k, v) => if (entryOf k es).isSome then es else setEntry k v es) entries

mutual

def mergedValue (old : Option Value) : Value → Value
  | .dict new =>
    match old with
    | some (.dict entries) => .dict (deepMerge entries new)
    | _ => .dict new
  | v => v

def deepMerge (entries : List (Value × Value)) : List (Value × Value) → List (Value × Value)
  | [] => entries
  | (k, v) :: rest => deepMerge (setEntry k (mergedValue (entryOf k entries) v) entries) rest

end

structure Comparison where
  equal : Bool
  added : List (Value × Value) := []
  removed : List (Value × Value) := []
  modified : List (Value × Value × Value) := []

def Comparison.isEmpty (c : Comparison) : Bool := c.added.isEmpty && c.removed.isEmpty && c.modified.isEmpty

def compareEntries (first second : List (Value × Value)) : Comparison :=
  let c : Comparison := {
    equal := true
    added := second.filter fun (k, _) => (entryOf k first).isNone
    removed := first.filter fun (k, _) => (entryOf k second).isNone
    modified := first.filterMap fun (k, v) =>
      match entryOf k second with
      | some w => if v.same w then none else some (k, v, w)
      | none => none }
  { c with equal := c.isEmpty }

def indexed (n : Nat) : List Value → List (Value × Value)
  | [] => []
  | v :: rest => (.int n, v) :: indexed (n + 1) rest

def differing (n : Nat) : List Value → List Value → List (Value × Value × Value)
  | v :: vs, w :: ws =>
    if v.same w then differing (n + 1) vs ws else (.int n, v, w) :: differing (n + 1) vs ws
  | _, _ => []

def compareItems (first second : List Value) : Comparison :=
  if Value.sameItems first second then { equal := true }
  else
    { equal := false
      added := indexed first.length (second.drop first.length)
      removed := indexed second.length (first.drop second.length)
      modified := differing 0 first second }

def textFor : Value → Except Fault String
  | .str s => .ok s
  | _ => .error .missingAttribute

def textArgument : Value → Except Fault String
  | .str s => .ok s
  | _ => .error .wrongKind

def intArgument (v : Value) : Except Fault Int :=
  match v.asInt? with
  | some n => .ok n
  | none => .error .wrongKind

def entriesFor : Value → Except Fault (List (Value × Value))
  | .dict entries => .ok entries
  | _ => .error .missingAttribute

def characters (s : String) : List Value := s.toList.map fun c => .str (String.singleton c)

def items : Value → Except Fault (List Value)
  | .list vs | .tuple vs | .set vs => .ok vs
  | .str s => .ok (characters s)
  | .dict entries => .ok (entries.map Prod.fst)
  | _ => .error .wrongKind

def size (v : Value) : Except Fault Nat :=
  match v with
  | .str s => .ok s.length
  | other => (items other).map List.length

def isWithin (v container : Value) : Except Fault Bool :=
  match container with
  | .dict entries => if v.isHashable then .ok (entryOf v entries).isSome else .error .wrongKind
  | .str s => do return Text.contains (← textArgument v) s
  | other => do return (← items other).any v.alike

def getOr (v key missing : Value) : Except Fault Value := do
  let entries ← entriesFor v
  if !key.isHashable then .error .wrongKind
  return (entryOf key entries).getD missing

def isInstance (v : Value) (kind : String) : Bool :=
  v.kindName = kind || kind = "object" || (kind = "int" && v.kindName = "bool")

def upTo {α : Type} (n : Int) (l : List α) : List α :=
  l.take (if n < 0 then (l.length + n).toNat else n.toNat)

def itemAt (n : Int) (l : List Value) : Except Fault Value :=
  let i := if n < 0 then l.length + n else n
  if i < 0 then .error .outOfRange
  else match l[i.toNat]? with
    | some v => .ok v
    | none => .error .outOfRange

end KeywordDocs.Samples
