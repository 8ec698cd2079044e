import KeywordDocs.Module.Operation
import KeywordDocs.Module.Scope

/-!
# Calls

What calling a thing gives. Routines of the module itself are run; of the standard library only the few
routines that documentation depends on are known.
-/

namespace KeywordDocs.Module

open Source

def isDunder (name : String) : Bool := Text.startsWith "__" name && Text.endsWith "__" name

def partOfData (v : Value) (name : String) : Evaluation Entity :=
  match v, name with
  | .member _ _ n _, "name" => return .data (.str n)
  | .member _ _ _ inner, "value" => return .data inner
  | .object .., _ | .moment _, _ | .kind _, _ | .complex .., _ | .ellipsis, _ => return .unknown
  | .member .., _ => if isDunder name then return .unknown else throw "AttributeError"
  | v, name =>
    match publicParts? v.kindName with
    | some names =>
      if names.contains name then return .method v name
      else if isDunder name then return .unknown
      else throw "AttributeError"
    | none => return .unknown

def Kind.foreignParts? (k : Kind) : Option (List String) :=
  if k.enumeration?.isSome || k.name = "object" then some []
  else if k.isBuiltin then publicParts? k.name
  else if isStandardModule k.home then none
  else some []

def Kind.isFullyKnown (k : Kind) : Bool := k.lineage.all fun b => b.foreignParts?.isSome

def partOfKind (k : Kind) (name : String) : Evaluation Entity :=
  match (k.member? name).map Entity.data, k.entry? name with
  | some e, _ => return e
  | none, some e => return e
  | none, none =>
    if name = "__name__" then return .data (.str k.name)
    else if isDunder name || name = "mro" || !k.isFullyKnown then return .unknown
    else if k.lineage.any fun b => (b.foreignParts?.getD []).contains name then return .unknown
    else throw "AttributeError"

def partOf (e : Entity) (name : String) : Evaluation Entity :=
  match e with
  | .data v => partOfData v name
  | .kind k => partOfKind k name
  | .module _ entries =>
    match entries.lookup name with
    | some e => return e
    | none => if isDunder name then return .unknown else throw "AttributeError"
  | .standard path =>
    match standardPart path name with
    | some e => return e
    | none => if isDunder name then return .unknown else throw "AttributeError"
  | .routine r _ =>
    match name with
    | "__name__" => return .data (.str r.head.name)
    | "__doc__" => return .data (((documentation? r.body).map Value.str).getD .none)
    | _ => return .unknown
  | _ => return .unknown

def genericKinds : List String :=
  ["list", "dict", "tuple", "set", "frozenset", "type", "enumerate", "filter", "map"]

def itemOf (e index : Entity) : Evaluation Entity :=
  match e, index with
  | .data v, .data i => Evaluation.ofResult (itemAt v i)
  | .kind k, index =>
    if k.enumeration?.isSome then
      match index with
      | .data (.str name) =>
        match k.member? name with
        | some v => return .data v
        | none => throw "KeyError"
      | .data _ => throw "KeyError"
      | _ => return .unknown
    else if k.isBuiltin then
      if genericKinds.contains k.name then return .unknown else throw "TypeError"
    else if k.isFullyKnown && !(k.entry? "__class_getitem__").isSome then throw "TypeError"
    else return .unknown
  | .routine .., _ | .nameless .., _ | .module .., _ => throw "TypeError"
  | _, _ => return .unknown

structure Arguments where
  positional : List Entity := []
  named : List (String × Entity) := []
  isOpen : Bool := false

def Arguments.get? (a : Arguments) (i : Nat) (name : String) : Option Entity :=
  a.positional[i]?.orElse fun _ => a.named.lookup name

structure Formal where
  positionalOnly : List String := []
  positional : List String := []
  defaults : List Expr := []
  rest : Option String := none
  keywordOnly : List (String × Option Expr) := []
  named : Option String := none

def Formal.ofParameters (p : Parameters) : Formal where
  positionalOnly := p.positionalOnly.map (·.name)
  positional := p.positional.map (·.name)
  defaults := p.defaults
  rest := p.rest.map (·.name)
  keywordOnly := (p.keywordOnly.map (·.name)).zip p.keywordDefaults
  named := p.named.map (·.name)

def Formal.ofNames (n : LambdaNames) : Formal where
  positionalOnly := n.positionalOnly
  positional := n.positional
  rest := n.rest
  keywordOnly := n.keywordOnly.map fun name => (name, none)
  named := n.named

def Formal.positionalDefaults (f : Formal) : List (String × Option Expr) :=
  let names := f.positionalOnly ++ f.positional
  names.zip (List.replicate (names.length - f.defaults.length) none ++ f.defaults.map some)

variable (self : Evaluator)

def bindParameter (isOpen : Bool) (given : Option Entity) (name : String)
  (default : Option Expr) : Evaluation (String × Entity) :=
  match given, default with
  | some e, _ => return (name, e)
  | none, some d => do return (name, ← self.value d)
  | none, none => if isOpen then return (name, .unknown) else throw "TypeError"

def bindParameters (f : Formal) (a : Arguments) : Evaluation Entries := do
  let names := f.positionalOnly ++ f.positional
  let extra := a.named.filter fun n =>
    !f.positional.contains n.1 && !(f.keywordOnly.map Prod.fst).contains n.1
  if names.length < a.positional.length && f.rest.isNone then throw "TypeError"
  if !extra.isEmpty && f.named.isNone then throw "TypeError"
  let positional ← f.positionalDefaults.zipIdx.mapM fun ((name, default), i) =>
    bindParameter self a.isOpen
      (a.positional[i]?.orElse fun _ =>
        if f.positional.contains name then a.named.lookup name else none) name default
  let keywordOnly ← f.keywordOnly.mapM fun (name, default) =>
    bindParameter self a.isOpen (a.named.lookup name) name default
  let rest := f.rest.toList.map fun name =>
    let more := (a.positional.drop names.length).mapM Entity.value?
    (name, (more.map fun vs => Entity.data (.tuple vs)).getD .unknown)
  let named := f.named.toList.map fun name => (name, Entity.unknown)
  return positional ++ rest ++ keywordOnly ++ named

def runAll : List Stmt → Evaluation Signal
  | [] => return .onward
  | s :: rest => do
    match ← self.run s with
    | .onward => runAll rest
    | signal => return signal

def callRoutine (r : Routine) (captured : Entries) (a : Arguments) : Evaluation Entity := do
  if r.home ≠ (← get).home || r.head.isAsync then return .unknown
  let entries ← bindParameters self (.ofParameters r.head.parameters) a
  let (signal, _) ← Evaluation.within [{ entries }, { entries := captured }] (runAll self r.body)
  match signal with
  | .give e => return e
  | _ => return .data .none

def markKeyword (name : Option Value) : Entity → Evaluation Entity
  | .routine r captured =>
    match r.access with
    | .ordinary => return .routine { r with mark := some name } captured
    | .property => throw "AttributeError"
    | _ => return .routine r captured
  | e => return e

def Kind.extend (more : Entries) : Kind → Kind
  | .mk n h b entries e => .mk n h b (more.foldl (fun es m => Entries.bind m.1 m.2 es) entries) e

def libraryEntries (a : Arguments) : Entries :=
  let given (i : Nat) (argument entry : String) : Entries :=
    match a.get? i argument with
    | some (.data .none) | none => []
    | some e => [(entry, e)]
  given 0 "scope" "ROBOT_LIBRARY_SCOPE" ++ given 1 "version" "ROBOT_LIBRARY_VERSION" ++
    [("ROBOT_AUTO_KEYWORDS", (a.get? 5 "auto_keywords").getD (.data (.bool false)))]

def callStandard (path : String) (a : Arguments) : Evaluation Entity :=
  match path, a.positional with
  | "robot.api.deco.keyword", .data v :: _ => return .marker (some v)
  | "robot.api.deco.keyword", f :: _ => markKeyword none f
  | "robot.api.deco.keyword", [] => return .marker ((a.named.lookup "name").bind Entity.value?)
  | "robot.api.deco.not_keyword", .routine r captured :: _ =>
    return .routine { r with isHidden := true } captured
  | "robot.api.deco.library", .kind k :: _ => return .kind (k.extend (libraryEntries {}))
  | "robot.api.deco.library", _ => return .extender (libraryEntries a)
  | "functools.wraps", f :: _ => return .always f
  | "functools.cached_property", .routine r captured :: _ =>
    return .routine { r with access := .property } captured
  | "enum.auto", _ => return .automatic
  | "enum.unique", .kind k :: _ =>
    match k.enumeration? with
    | some e => if e.aliases.isEmpty then return .kind k else throw "ValueError"
    | none => return .kind k
  | "builtins.print", _ => return .data .none
  | "builtins.len", [.data v] =>
    match (Entity.data v).items? with
    | some items => return .data (.int items.length)
    | none => return .unknown
  | "builtins.exit", _ | "builtins.quit", _ | "sys.exit", _ => throw "SystemExit"
  | _, _ => return .unknown

def namedMembers : Value → List (String × Entity)
  | .str s =>
    (((Text.splitAtChar ' ' (Text.replace "," " " s).toList).map String.ofList).filter
      (!·.isEmpty)).map fun n => (n, .automatic)
  | .list items | .tuple items => items.filterMap fun v =>
    match v with
    | .str n => some (n, .automatic)
    | .tuple [.str n, v] | .list [.str n, v] => some (n, .data v)
    | _ => none
  | .dict entries => entries.filterMap fun e => e.1.text?.map fun n => (n, .data e.2)
  | _ => []

def callEnumeration (k : Kind) (e : Enumeration) (a : Arguments) : Evaluation Entity := do
  match a.positional with
  | [] => if a.isOpen then return .unknown else throw "TypeError"
  | first :: more =>
    if e.members.isEmpty then
      match first, more with
      | .data (.str name), .data members :: _ =>
        match Enumeration.ofEntries e (namedMembers members) with
        | .ok made => return .kind (.mk name (← get).home [k] [] (some made))
        | .error t => throw t
      | _, _ => throw "TypeError"
    else
      match first with
      | .data v =>
        let own := match v with
          | .member _ owner n _ => if owner = k.name then k.member? n else none
          | _ => none
        match own, (e.members ++ e.combined).find? fun m => m.2.same v with
        | some m, _ => return .data m
        | none, some m => return .data (.member e.mode k.name m.1 m.2)
        | none, none => if e.isFlag then return .unknown else throw "ValueError"
      | _ => return .unknown

def callBuiltinKind (name : String) (a : Arguments) : Evaluation Entity :=
  match name, a.positional with
  | "staticmethod", .routine r captured :: _ => return .routine { r with access := .static } captured
  | "classmethod", .routine r captured :: _ => return .routine { r with access := .byClass } captured
  | "property", .routine r captured :: _ => return .routine { r with access := .property } captured
  | "property", _ => return .unknown
  | "int", [] => return .data (.int 0)
  | "float", [] => return .data (.float 0.0)
  | "str", [] => return .data (.str "")
  | "bool", [] => return .data (.bool false)
  | "bytes", [] => return .data (.bytes [])
  | "list", [] => return .data (.list [])
  | "tuple", [] => return .data (.tuple [])
  | "set", [] => return .data (.set [])
  | "dict", [] =>
    match a.named.mapM fun n => n.2.value?.map fun v => (Value.str n.1, v) with
    | some entries => if a.isOpen then return .unknown else return .data (.dict entries)
    | none => return .unknown
  | "str", [e] =>
    match e.value? with
    | some (.object ..) | none => return .unknown
    | some v => return .data (.str v.display)
  | "bool", [e] =>
    match e.isTruthy? with
    | some b => return .data (.bool b)
    | none => return .unknown
  | "int", [.data v] =>
    match v.asInt? with
    | some n => return .data (.int n)
    | none => return .unknown
  | "float", [.data v] =>
    match v.asFloat? with
    | some x => return .data (.float x)
    | none => return .unknown
  | "list", [e] =>
    match e.items?.bind fun items => items.mapM Entity.value? with
    | some vs => return .data (.list vs)
    | none => return .unknown
  | "tuple", [e] =>
    match e.items?.bind fun items => items.mapM Entity.value? with
    | some vs => return .data (.tuple vs)
    | none => return .unknown
  | "range", [.data (.int n)] =>
    return .data (.list ((List.range (min n.toNat 1000)).map fun i : Nat => .int i))
  | name, _ =>
    if Text.endsWith "Error" name || Text.endsWith "Exception" name then
      return .data (.object name (name ++ "()"))
    else return .unknown

def callKind (k : Kind) (a : Arguments) : Evaluation Entity := do
  match k.enumeration? with
  | some e => callEnumeration k e a
  | none =>
    if k.isBuiltin then callBuiltinKind k.name a
    else
      match k.entry? "__init__" with
      | some (.routine r captured) =>
        let _ ← callRoutine self r captured
          { a with positional := .data (.object k.name "") :: a.positional }
      | _ => pure ()
      return .data (.object k.name "")

def callEntity (f : Entity) (a : Arguments) : Evaluation Entity :=
  match f with
  | .kind k => callKind self k a
  | .routine r captured =>
    match r.access with
    | .ordinary | .static => callRoutine self r captured a
    | _ => return .unknown
  | .nameless names body captured => do
    let entries ← bindParameters self (.ofNames names) { a with isOpen := true }
    let (e, _) ← Evaluation.within [{ entries }, { entries := captured }] (self.value body)
    return e
  | .method (.str s) name =>
    match a.positional.mapM Entity.value?, a.named with
    | some args, [] => Evaluation.ofResult (applyMethod s name args)
    | _, _ => return .unknown
  | .standard path => callStandard path a
  | .marker name =>
    match a.positional with
    | [e] => markKeyword name e
    | _ => throw "TypeError"
  | .extender more =>
    match a.positional with
    | [.kind k] => return .kind (k.extend more)
    | _ => return .unknown
  | .always e => return e
  | .data (.object ..) => return .unknown
  | .data _ | .module .. => throw "TypeError"
  | _ => return .unknown

def decorate (decorator target : Entity) : Evaluation Entity := do
  match ← callEntity self decorator { positional := [target] } with
  | .unknown => return target
  | e => return e

end KeywordDocs.Module
