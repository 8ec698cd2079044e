import KeywordDocs.Module.Enumeration

/-!
# Operations on Data

What the operators and methods a module uses for its constants give.
-/

namespace KeywordDocs.Module

open Source

variable (op : BinaryOp)

abbrev Result := Except Trouble (Option Value)

def known (v : Value) : Result := .ok (some v)

def integerBinary (a b : Int) : Result :=
  match op with
  | .add => known (.int (a + b))
  | .sub => known (.int (a - b))
  | .mul => known (.int (a * b))
  | .floorDiv => if b = 0 then .error "ZeroDivisionError" else known (.int (Int.fdiv a b))
  | .mod => if b = 0 then .error "ZeroDivisionError" else known (.int (Int.fmod a b))
  | .div =>
    if b = 0 then .error "ZeroDivisionError"
    else match Number.divide? a b with
      | some x => known (.float x)
      | none => .error "OverflowError"
  | .pow => if 0 ≤ b ∧ b ≤ 4096 then known (.int (Int.pow a b.toNat)) else .ok none
  | .bitOr => if 0 ≤ a ∧ 0 ≤ b then known (.int (a.toNat ||| b.toNat)) else .ok none
  | .bitAnd => if 0 ≤ a ∧ 0 ≤ b then known (.int (a.toNat &&& b.toNat)) else .ok none
  | .bitXor => if 0 ≤ a ∧ 0 ≤ b then known (.int (a.toNat ^^^ b.toNat)) else .ok none
  | .shiftLeft => if 0 ≤ b ∧ b ≤ 4096 then known (.int (a * Int.pow 2 b.toNat)) else .ok none
  | .shiftRight => if 0 ≤ b ∧ b ≤ 4096 then known (.int (Int.fdiv a (Int.pow 2 b.toNat))) else .ok none
  | .matMul => .error "TypeError"

def floatBinary (a b : Float) : Result :=
  match op with
  | .add => known (.float (a + b))
  | .sub => known (.float (a - b))
  | .mul => known (.float (a * b))
  | .div => if b == 0.0 then .error "ZeroDivisionError" else known (.float (a / b))
  | .bitOr | .bitAnd | .bitXor | .shiftLeft | .shiftRight | .matMul => .error "TypeError"
  | _ => .ok none

def applyBinary (a b : Value) : Result :=
  match op, a, b with
  | .add, .str s, .str t => known (.str (s ++ t))
  | .add, .list s, .list t => known (.list (s ++ t))
  | .add, .tuple s, .tuple t => known (.tuple (s ++ t))
  | .add, .bytes s, .bytes t => known (.bytes (s ++ t))
  | .mul, .str s, .int n | .mul, .int n, .str s => known (.str (String.join (List.replicate n.toNat s)))
  | .mod, .str _, _ => .ok none
  | _, _, _ =>
    match a.asInt?, b.asInt?, a.asFloat?, b.asFloat? with
    | some m, some n, _, _ => integerBinary op m n
    | _, _, some x, some y => floatBinary op x y
    | _, _, _, _ =>
      match a, b with
      | .str _, _ | _, .str _ | .none, _ | _, .none => .error "TypeError"
      | _, _ => .ok none

def applyUnary (op : UnaryOp) (v : Value) : Result :=
  match op with
  | .not => known (.bool !v.isTruthy)
  | _ =>
    match op, v, v.asInt? with
    | .minus, _, some n => known (.int (-n))
    | .plus, _, some n => known (.int n)
    | .invert, _, some n => known (.int (-n - 1))
    | .minus, .float x, _ => known (.float (-x))
    | .plus, .float x, _ => known (.float x)
    | _, .complex .., _ | _, .member .., _ | _, .object .., _ => .ok none
    | _, _, _ => .error "TypeError"

def applyComparison (op : CompareOp) (a b : Value) : Result :=
  let order (swap negate : Bool) : Result :=
    match if swap then Value.less b a else Value.less a b with
    | .ok r => known (.bool (r != negate))
    | .error _ => .error "TypeError"
  let among : Result := match b with
    | .list items | .tuple items | .set items => known (.bool (items.any fun v => v.alike a))
    | .dict entries => known (.bool (entries.any fun e => e.1.alike a))
    | .str s =>
      match a with
      | .str part => known (.bool (Text.contains part s))
      | _ => .error "TypeError"
    | _ => .ok none
  match op with
  | .equal => known (.bool (a.same b))
  | .unequal => known (.bool !(a.same b))
  | .less => order false false
  | .greater => order true false
  | .lessEqual => order true true
  | .greaterEqual => order false true
  | .same => known (.bool (a.same b && a.kindName == b.kindName))
  | .notSame => known (.bool !(a.same b && a.kindName == b.kindName))
  | .member => among
  | .notMember => do
    match ← among with
    | some (.bool r) => known (.bool !r)
    | _ => .ok none

def placeOf? (size : Nat) (i : Int) : Option Nat :=
  let j := if i < 0 then i + size else i
  if 0 ≤ j ∧ j < size then some j.toNat else none

def itemAt (container index : Value) : Result :=
  let at? (items : List Value) : Result :=
    match index.asInt? with
    | none => .error "TypeError"
    | some i =>
      match (placeOf? items.length i).bind fun n => items[n]? with
      | some v => known v
      | none => .error "IndexError"
  match container with
  | .list items | .tuple items => at? items
  | .str s => at? (s.toList.map fun c => .str (String.singleton c))
  | .dict entries =>
    match entries.find? fun e => e.1.same index with
    | some e => known e.2
    | none => .error "KeyError"
  | .none | .bool _ | .int _ | .float _ => .error "TypeError"
  | _ => .ok none

def applyMethod (s name : String) (args : List Value) : Result :=
  match name, args with
  | "upper", [] => known (.str (Text.upper s))
  | "lower", [] => known (.str (Text.lower s))
  | "title", [] => known (.str (Text.title s))
  | "strip", [] => known (.str (Text.trim s))
  | "lstrip", [] => known (.str (Text.trimLeft s))
  | "rstrip", [] => known (.str (Text.trimRight s))
  | "replace", [.str old, .str new] => known (.str (Text.replace old new s))
  | "startswith", [.str start] => known (.bool (Text.startsWith start s))
  | "endswith", [.str ending] => known (.bool (Text.endsWith ending s))
  | "split", [.str sep] =>
    if sep.isEmpty then .error "ValueError" else known (.list ((Text.splitOn sep s).map .str))
  | "join", [.list items] | "join", [.tuple items] =>
    match items.mapM Value.text? with
    | some texts => known (.str (Text.join s texts))
    | none => .error "TypeError"
  | _, _ => .ok none

end KeywordDocs.Module
