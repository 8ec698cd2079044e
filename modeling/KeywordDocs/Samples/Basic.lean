import KeywordDocs.Files.Disk
import KeywordDocs.Value.Order

/-!
# Sample Libraries

Libraries whose keywords can be called. The documentation of keywords is shown with them, so they take values
of any kind, and a value of the wrong kind is a fault.
-/

namespace KeywordDocs.Samples

open Files

variable (name : String)

structure Scene where
  state : List (String × Value) := []
  disk : Disk := {}
  now : Moment
  printed : List String := []
  drawn : Nat := 0

abbrev Playing := ExceptT Fault (StateM Scene)

def outcome {α : Type} : Except Fault α → Playing α
  | .ok a => return a
  | .error f => throw f

def printLine (s : String) : Playing Unit :=
  modify fun scene => { scene with printed := (s ++ "\n") :: scene.printed }

def stateField : Playing Value := do
  return ((← get).state.lookup name).getD .none

def setState (v : Value) : Playing Unit :=
  modify fun scene => { scene with
    state := scene.state.map fun (n, old) => (n, if n = name then v else old) }

inductive Formal where
  | required (name : String)
  | optional (name : String) (default : Value)
  | rest (name : String)
  | named (name : String) (default : Value)
  | others (name : String)

def Formal.byName? : Formal → Option String
  | .required n | .optional n _ | .named n _ => some n
  | .rest _ | .others _ => none

def bindFormals (kwargs : List (String × Value)) :
  List Formal → List Value → Except Fault (List Value × List Value)
  | [], args => .ok ([], args)
  | .rest _ :: formals, args => do
    let (bound, left) ← bindFormals kwargs formals []
    return (.tuple args :: bound, left)
  | .others _ :: formals, args => do
    let (bound, left) ← bindFormals kwargs formals args
    return (.dict (kwargs.map fun (k, v) => (.str k, v)) :: bound, left)
  | .named n default :: formals, args => do
    let (bound, left) ← bindFormals (kwargs.filter fun k => k.1 ≠ n) formals args
    return ((kwargs.lookup n).getD default :: bound, left)
  | formal :: formals, args => do
    let name := formal.byName?.getD ""
    let given := kwargs.lookup name
    let rest := kwargs.filter fun k => k.1 ≠ name
    match args, given, formal with
    | _ :: _, some _, _ => .error .wrongKind
    | v :: args, none, _ => do
      let (bound, left) ← bindFormals rest formals args
      return (v :: bound, left)
    | [], some v, _ => do
      let (bound, left) ← bindFormals rest formals []
      return (v :: bound, left)
    | [], none, .optional _ default => do
      let (bound, left) ← bindFormals rest formals []
      return (default :: bound, left)
    | [], none, _ => .error .wrongKind

def bindArguments (formals : List Formal) (args : List Value) (kwargs : List (String × Value)) :
  Except Fault (List Value) := do
  let takesOthers := formals.any fun | .others _ => true | _ => false
  let names := formals.filterMap Formal.byName?
  if kwargs.any fun k => k.1 = "self" || (!takesOthers && !names.contains k.1) then
    .error .wrongKind
  let (bound, left) ← bindFormals kwargs formals args
  if left.isEmpty then return bound else .error .wrongKind

structure SampleKeyword where
  name : String
  formals : List Formal
  body : List Value → Playing Value

structure SampleLibrary where
  initial : List (String × Value) := []
  keywords : List SampleKeyword

def SampleLibrary.call (lib : SampleLibrary) (name : String) (args : List Value)
  (kwargs : List (String × Value)) : Playing Value := do
  match lib.keywords.find? fun k => k.name = name with
  | some k => k.body (← outcome (bindArguments k.formals args kwargs))
  | none => throw .missingAttribute

def keyword0 (f : Playing Value) : SampleKeyword := ⟨name, [], fun _ => f⟩

def keyword1 (a : Formal) (f : Value → Playing Value) : SampleKeyword :=
  ⟨name, [a], fun
    | [v] => f v
    | _ => throw .wrongKind⟩

def keyword2 (a b : Formal) (f : Value → Value → Playing Value) : SampleKeyword :=
  ⟨name, [a, b], fun
    | [v, w] => f v w
    | _ => throw .wrongKind⟩

def keyword3 (a b c : Formal) (f : Value → Value → Value → Playing Value) : SampleKeyword :=
  ⟨name, [a, b, c], fun
    | [u, v, w] => f u v w
    | _ => throw .wrongKind⟩

def keyword4 (a b c d : Formal)
  (f : Value → Value → Value → Value → Playing Value) : SampleKeyword :=
  ⟨name, [a, b, c, d], fun
    | [u, v, w, x] => f u v w x
    | _ => throw .wrongKind⟩

end KeywordDocs.Samples
