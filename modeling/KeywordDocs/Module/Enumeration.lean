import KeywordDocs.Source.Stmt
import KeywordDocs.Text.Search
import KeywordDocs.Value.Arithmetic
import KeywordDocs.Value.Order

/-!
# What Names Stand For

When a library's source is loaded, its names come to stand for data, classes, routines and modules.
-/

namespace KeywordDocs.Module

open Source

inductive Access where
  | ordinary
  | static
  | byClass
  /-- Computed on access, so that it is no routine to the outside. -/
  | property
  deriving DecidableEq

structure Routine where
  head : Function
  body : List Stmt
  home : String
  /-- Whether it is marked as a keyword, and the name the mark gives. -/
  mark : Option (Option Value) := none
  isHidden : Bool := false
  access : Access := .ordinary

structure Enumeration where
  mode : MemberKind := .plain
  mixin : Option String := none
  isFlag : Bool := false
  members : List (String × Value) := []
  aliases : List (String × String) := []
  /-- Members that stand for several bits or none. -/
  combined : List (String × Value) := []

mutual

inductive Entity where
  | data (v : Value)
  | kind (k : Kind)
  | routine (r : Routine) (captured : List (String × Entity))
  | nameless (names : LambdaNames) (body : Expr) (captured : List (String × Entity))
  | method (of : Value) (name : String)
  | module (name : String) (entries : List (String × Entity))
  | standard (path : String)
  | marker (name : Option Value)
  | extender (entries : List (String × Entity))
  | always (e : Entity)
  | automatic
  | unknown

inductive Kind where
  | mk (name home : String) (bases : List Kind) (entries : List (String × Entity))
      (enumeration : Option Enumeration)

end

instance : Inhabited Entity := ⟨.unknown⟩

instance : Inhabited Kind := ⟨.mk "" "" [] [] none⟩

abbrev Entries := List (String × Entity)

namespace Entries

def bind (name : String) (e : Entity) : Entries → Entries
  | [] => [(name, e)]
  | (n, old) :: rest => if n = name then (n, e) :: rest else (n, old) :: bind name e rest

def unbind (name : String) (es : Entries) : Entries := es.filter (·.1 ≠ name)

end Entries

namespace Kind

def name : Kind → String
  | .mk n _ _ _ _ => n

def home : Kind → String
  | .mk _ h _ _ _ => h

def ownEntries : Kind → Entries
  | .mk _ _ _ e _ => e

def enumeration? : Kind → Option Enumeration
  | .mk _ _ _ _ e => e

def builtin (name : String) : Kind := .mk name "builtins" [] [] none

def isBuiltin (k : Kind) : Bool := k.home == "builtins"

mutual

def allEntries : Kind → Entries
  | .mk _ _ bases entries _ => entries ++ baseEntries bases

def baseEntries : List Kind → Entries
  | [] => []
  | k :: rest => allEntries k ++ baseEntries rest

end

mutual

def lineage : Kind → List Kind
  | k@(.mk _ _ bases _ _) => k :: lineages bases

def lineages : List Kind → List Kind
  | [] => []
  | k :: rest => lineage k ++ lineages rest

end

def entry? (k : Kind) (name : String) : Option Entity := k.allEntries.lookup name

def member? (k : Kind) (name : String) : Option Value := do
  let e ← k.enumeration?
  let canonical := (e.aliases.lookup name).getD name
  let v ← (e.members ++ e.combined).lookup canonical
  return .member e.mode k.name canonical v

def asValue (k : Kind) : Value :=
  if k.enumeration?.isSome then .object "EnumType" ("<enum '" ++ k.name ++ "'>")
  else if k.isBuiltin then .kind k.name
  else .kind (k.home ++ "." ++ k.name)

end Kind

abbrev Trouble := String

def largest? : List Int → Option Int
  | [] => none
  | n :: rest => some (rest.foldl max n)

def bitLength (n : Nat) : Nat :=
  if n = 0 then 0 else Nat.log2 n + 1

def isSingleBit (n : Int) : Bool := 0 < n && n == Int.pow 2 (bitLength n.toNat - 1)

def successor? : Value → Option Value
  | .float x => some (.float (x + 1.0))
  | v => v.asInt?.map fun n => .int (n + 1)

def automaticValue (e : Enumeration) (name : String) (before : List Value) : Value :=
  if e.isFlag then
    match largest? (before.filterMap Value.asInt?) with
    | some n => .int (Int.pow 2 (bitLength n.toNat))
    | none => .int 1
  else if e.mode = .text then .str (Text.lower name)
  else
    let last := match before.mapM Value.asInt? with
      | some ns => (largest? ns).map Value.int
      | none => before.reverse.find? fun v => (successor? v).isSome
    (last.bind successor?).getD (.int 1)

def mixedValue (mixin : Option String) (v : Value) : Except Trouble Value :=
  match mixin, v with
  | some "str", .str s => .ok (.str s)
  | some "str", v => .ok (.str v.display)
  | some "int", v =>
    match v.asInt? with
    | some n => .ok (.int n)
    | none => .error "ValueError"
  | some "float", v =>
    match v.asFloat? with
    | some x => .ok (.float x)
    | none => .error "ValueError"
  | _, v => .ok v

def isWrapped (marks : List Char) (name : String) : Bool :=
  let cs := name.toList
  let inner := (cs.drop marks.length).dropLast
  let inner := if marks.length = 2 then inner.dropLast else inner
  2 * marks.length < cs.length && marks.isPrefixOf cs && marks.isSuffixOf cs &&
    inner.head? ≠ some '_' && inner.getLast? ≠ some '_'

def isSetApart (name : String) : Bool := isWrapped ['_'] name || isWrapped ['_', '_'] name

namespace Enumeration

def add (e : Enumeration) (name : String) (v : Value) : Enumeration :=
  match (e.members ++ e.combined).find? fun m => m.2.same v with
  | some m => { e with aliases := e.aliases ++ [(name, m.1)] }
  | none =>
    let single := match v.asInt? with
      | some n => isSingleBit n
      | none => false
    if e.isFlag && !single then { e with combined := e.combined ++ [(name, v)] }
    else { e with members := e.members ++ [(name, v)] }

def addEntries (ignored : List String) : Enumeration → List Value → Entries →
  Except Trouble Enumeration
  | e, _, [] => .ok e
  | e, before, (name, entity) :: rest =>
    if isSetApart name || ignored.contains name then addEntries ignored e before rest
    else
      let given : Option Value := match entity with
        | .data v => some v
        | .automatic => some (automaticValue e name before)
        | .kind k => some k.asValue
        | _ => none
      match given with
      | none => addEntries ignored e before rest
      | some v => do
        let v ← mixedValue e.mixin v
        addEntries ignored (e.add name v) (before ++ [v]) rest

def ignoredNames (entries : Entries) : List String :=
  match entries.lookup "_ignore_" with
  | some (.data (.list items)) | some (.data (.tuple items)) => items.filterMap Value.text?
  | some (.data (.str s)) => (Text.splitAtChar ' ' (Text.replace "," " " s).toList).map String.ofList
  | _ => []

def ofEntries (base : Enumeration) (entries : Entries) : Except Trouble Enumeration :=
  addEntries (ignoredNames entries) base [] entries

def ofPairs (pairs : List (String × Value)) : Except Trouble Enumeration := do
  let rec distinct : List (String × Value) → Bool
    | [] => true
    | p :: rest => !(rest.any fun q => q.1 = p.1) && distinct rest
  if pairs.any fun p => isWrapped ['_'] p.1 then throw "ValueError"
  if !distinct pairs then throw "TypeError"
  if pairs.any fun p => p.1 = "mro" || p.1 = "" then throw "ValueError"
  ofEntries {} (pairs.map fun p => (p.1, .data p.2))

end Enumeration

end KeywordDocs.Module
