import KeywordDocs.Module.Execution
import KeywordDocs.Source.Placement
import KeywordDocs.Source.Stmt.Parser

/-!
# Loading a Source

Running a library's source to learn what its names stand for, without its files being touched.
-/

namespace KeywordDocs.Module

open Source

abbrev Surroundings := List String → Option (Option String)

variable (around : Surroundings)

def sourceTrouble : Fault → Trouble
  | .badIndentation => "IndentationError"
  | .mixedIndentation => "TabError"
  | _ => "SyntaxError"

def runProgram (self : Evaluator) (home : String) (program : List Stmt) : Evaluation Entries := do
  if !isWellPlaced program then throw "SyntaxError"
  let outer ← get
  set { home := home : Scope }
  let result ← tryCatch (do
      let _ ← runAll self program
      return Except.ok (← get).top)
    fun t => return Except.error t
  set outer
  match result with
  | .ok entries => return entries
  | .error t => throw t

def loadModule (self : Evaluator) (parts : List String) :
  Evaluation Entity := do
  let name := Text.join "." parts
  match around parts with
  | none => throw "ModuleNotFoundError"
  | some none => return .module name []
  | some (some text) =>
    match Program.read text with
    | .error f => throw (sourceTrouble f)
    | .ok program => return .module name (← runProgram self name program)

def Evaluator.ofDepth (around : Surroundings) : Nat → Evaluator
  | 0 =>
    { value := fun _ => throw "RecursionError"
      run := fun _ => throw "RecursionError"
      load := fun _ => throw "RecursionError" }
  | n + 1 =>
    let self := ofDepth around n
    { value := evaluate self, run := execute self, load := loadModule around self }

def depthBound : Nat := 3000

def load (home : String) (program : List Stmt) : Except Trouble Entries :=
  (runProgram (.ofDepth around depthBound) home program |>.run |>.run { home := home }).1

def valueIn (home : String) (entries : Entries) (e : Expr) :
  Except Trouble Entity :=
  ((Evaluator.ofDepth around depthBound).value e |>.run |>.run { home := home, top := entries }).1

def instantiate (home : String) (entries : Entries) (k : Kind) :
  Except Trouble Entity :=
  (callKind (.ofDepth around depthBound) k {} |>.run |>.run { home := home, top := entries }).1

def isEnumerationBase : Expr → Bool
  | .name id => id == "Enum"
  | .attribute (.name id) attr => id == "enum" && attr == "Enum"
  | _ => false

def recoverEnumerations (program : List Stmt) : Entries :=
  let self := Evaluator.ofDepth (fun _ => none) depthBound
  let start : Entries :=
    [("enum", .standard "enum")] ++ ((baseEnumeration? "Enum").toList.map fun k => ("Enum", .kind k))
  let step (found : Entries × Entries) (s : Stmt) : Entries × Entries :=
    match s with
    | .class h body =>
      if h.bases.any isEnumerationBase && isWellPlaced [s] then
        match (execute self (.class h body)).run.run { home := "__main__", top := found.1 } with
        | (.ok _, scope) =>
          match scope.top.lookup h.name with
          | some e => (scope.top, Entries.bind h.name e found.2)
          | none => (scope.top, found.2)
        | (.error _, scope) => (scope.top, found.2)
      else found
    | _ => found
  (program.foldl step (start, [])).2

end KeywordDocs.Module
