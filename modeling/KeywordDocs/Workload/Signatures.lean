import KeywordDocs.Discovery.ClassLibrary
import KeywordDocs.Source.Expr.Parser

/-!
# Signature Workload

Shows types and defaults of parameters, taken in turn from expressions of every form, and the
members of an enumeration.
-/

namespace KeywordDocs.Workload

open Source

def annotations : List String :=
  ["int", "str", "List[int]", "Dict[str, List[int]]", "int | str | None", "typing.Optional[int]",
    "Tuple[int, str, float]", "enum.Enum", "List", "a.b"]

def defaults : List String :=
  ["'hello'", "42", "1.5", "True", "None", "name", "[]", "\x7b\x7d", "()", "dict()",
    "module.func()", "Color.RED", "..."]

def cycle {α : Type} (items : List α) (n : Nat) : List α :=
  (List.range n).filterMap fun i => items[i % items.length]?

def shownType (written : String) : Except Fault (List Json) := do
  let e ← Expr.read written
  return [.str (Signature.methodType e), .str (← Signature.functionType e)]

def shownDefault (written : String) : Except Fault Json := do
  return ((Signature.defaultText (← Expr.read written)).map Json.str).getD .null

def twoMembers : Except Fault Module.Enumeration :=
  match Module.Enumeration.ofPairs [("A", .int 1), ("B", .str "two")] with
  | .ok e => .ok e
  | .error _ => .error .badValue

def membersShown (e : EnumInfo) : Json :=
  .obj ([("type_name", e.typeName.toJson), ("members", .arr (e.members.map fun m =>
      .obj [("name", m.name.toJson), ("value", m.value.toJson)]))] ++
    (e.default.map fun v => ("default", v.toJson)).toList)

def shownMembers : Except Fault (List Json) := do
  let k : Module.Kind := .mk "C" "" [] [] (some (← twoMembers))
  let written ← ["C.A", "A"].mapM fun e => do
    return Discovery.defaultName? (← Expr.read e)
  let member := match k.member? "A" with
    | some (.member _ _ name _) => some name
    | _ => none
  return ([member, some "A"] ++ written ++ [none]).map fun default =>
    ((Discovery.enumInfo k default).map membersShown).getD .null

def signatures (n : Nat) : Except Fault Json := do
  let types ← (cycle annotations n).mapM shownType
  return .arr (types.flatten ++ (← (cycle defaults n).mapM shownDefault) ++ (← shownMembers))

end KeywordDocs.Workload
