import KeywordDocs.Module.Standard

/-!
# Scopes

Where names are looked up while a source is loaded.
-/

namespace KeywordDocs.Module

open Source

variable (name : String)

structure Layer where
  isClass : Bool := false
  entries : Entries := []
  shared : List String := []

structure Scope where
  home : String
  isDeferred : Bool := false
  top : Entries := []
  layers : List Layer := []

variable (s : Scope)

abbrev Evaluation := ExceptT Trouble (StateM Scope)

inductive Signal where
  | onward
  | give (e : Entity)
  | leaveLoop
  | nextRound

structure Evaluator where
  value : Expr → Evaluation Entity
  run : Stmt → Evaluation Signal
  load : List String → Evaluation Entity

def Layer.find? : List Layer → Option Entity
  | [] => none
  | l :: rest =>
    (l.entries.lookup name).orElse fun _ =>
      ((rest.filter fun l => !l.isClass).findSome? fun l => l.entries.lookup name)

def Scope.find? (name : String) : Option Entity :=
  (Layer.find? name s.layers).orElse fun _ => (s.top.lookup name).orElse fun _ =>
    match name with
    | "__name__" => some (.data (.str s.home))
    | "__file__" | "__doc__" | "__spec__" | "__loader__" | "__builtins__" => some .unknown
    | "__package__" => some (.data (.str ""))
    | _ => builtin? name

def Scope.bind (e : Entity) (s : Scope) : Scope :=
  match s.layers with
  | [] => { s with top := s.top.bind name e }
  | l :: rest =>
    if l.shared.contains name then { s with top := s.top.bind name e }
    else { s with layers := { l with entries := l.entries.bind name e } :: rest }

def Scope.unbind : Scope :=
  match s.layers with
  | [] => { s with top := Entries.unbind name s.top }
  | l :: rest => { s with layers := { l with entries := Entries.unbind name l.entries } :: rest }

def Scope.captured : Entries := (s.layers.filter fun l => !l.isClass).flatMap (·.entries)

namespace Evaluation

def lookupName : Evaluation Entity := do
  match (← get).find? name with
  | some e => return e
  | none => throw "NameError"

def bindName (e : Entity) : Evaluation Unit := modify (Scope.bind name e)

def within {α : Type} (layers : List Layer) (x : Evaluation α) : Evaluation (α × Entries) := do
  let before := (← get).layers
  modify fun s => { s with layers := layers }
  let restore : Evaluation Entries := do
    let inner := (← get).layers
    modify fun s => { s with layers := before }
    return (inner.head?.map (·.entries)).getD []
  let result ← tryCatch x fun t => do
    let _ ← restore
    throw t
  return (result, ← restore)

def ofResult (r : Except Trouble (Option Value)) : Evaluation Entity :=
  match r with
  | .ok (some v) => return .data v
  | .ok none => return .unknown
  | .error t => throw t

end Evaluation

def Entity.isTruthy? : Entity → Option Bool
  | .data v => some v.isTruthy
  | .unknown | .standard _ | .automatic => none
  | _ => some true

def Entity.value? : Entity → Option Value
  | .data v => some v
  | .kind k => some k.asValue
  | _ => none

def Entity.items? : Entity → Option (List Entity)
  | .data (.list items) | .data (.tuple items) | .data (.set items) => some (items.map .data)
  | .data (.str s) => some (s.toList.map fun c => .data (.str (String.singleton c)))
  | .data (.dict entries) => some (entries.map fun e => .data e.1)
  | .kind k => k.enumeration?.map fun e => e.members.map fun m => .data (.member e.mode k.name m.1 m.2)
  | _ => none

end KeywordDocs.Module
