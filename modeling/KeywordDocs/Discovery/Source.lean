import KeywordDocs.Discovery.Inspected
import KeywordDocs.Files.Disk

/-!
# The Library in a Source

A source is inspected first. If that fails, it is read as it is written: the first class with a marked method
is the library, and without such a class the module is.
-/

namespace KeywordDocs.Discovery

open Source KeywordDocs.Module Highlight Text Files KeywordDocs.Signature

variable (config : Option Json) (program : List Stmt)

def defaultStart (count defaults : Nat) : Nat :=
  if defaults ≤ count then count - defaults else 2 * count - defaults

def functionDefault? (p : Parameters) (i : Nat) : Option Expr :=
  let start := defaultStart p.positional.length p.defaults.length
  if start ≤ i then p.defaults[i - start]? else none

def parameterTexts (p : Parameters) : Except Fault (List Parameter) :=
  (p.positional.zipIdx.filter fun a => a.1.name ≠ "self").mapM fun (a, i) => do
    let type ← match a.hint with
      | some e => functionType e
      | none => pure "Any"
    let default := match functionDefault? p i with
      | some e => " = " ++ (defaultText e).getD "None"
      | none => ""
    return .text (a.name ++ ": " ++ type ++ default)

def functionKeyword? (h : Function) (body : List Stmt) : Except Fault (Option Keyword) :=
  match firstMarkedName h with
  | none => .ok none
  | some name => do
    let parameters ← parameterTexts h.parameters
    let returnType ← match h.returns with
      | some e => functionType e
      | none => pure ""
    return some { name := name
                  description := (documentation? body).getD ""
                  parameters := parameters
                  returnType := returnType
                  lineNumber := some h.line }

def functionLibrary (stem : String) (names : Entries) (program : List Stmt) :
  Except Fault Library := do
  let keywords ← (program.filterMap plainFunction?).mapM fun f => functionKeyword? f.1 f.2
  return { name := .str stem
           version := (shownName? names "ROBOT_LIBRARY_VERSION").getD (.str "Unknown")
           scope := (shownName? names "ROBOT_LIBRARY_SCOPE").getD (.str "TEST")
           description := .str ((documentation? program).getD "")
           keywords := keywords.filterMap id }

inductive Way where
  | inspected
  | written
  deriving DecidableEq

structure SourceFile where
  stem : String
  isModule : Bool
  text : String
  around : Surroundings

variable (file : SourceFile)

def modulesIn (disk : Disk) (folder : Path) : Surroundings := fun parts =>
  let path := (folder.append { parts }).toText
  match disk.readText (path ++ "/__init__.py"), disk.readText (path ++ ".py") with
  | .ok text, _ => some (some text)
  | _, .ok text => some (some text)
  | _, _ => if disk.isDirectory path then some none else none

def SourceFile.onDisk (disk : Disk) (path : String) : Except Fault SourceFile := do
  let p := Path.ofText path
  return {
    stem := p.stem
    isModule := endsWith ".py" path
    text := ← disk.readText path
    around := modulesIn disk p.parent }

def writtenConstants : Entries :=
  program.foldl (fun names s =>
    match s with
    | .assign targets (.constant v _) =>
      targets.foldl (fun names t =>
        match t with
        | .name id => names.bind id (.data (.str v.display))
        | _ => names) names
    | _ => names) []

def shownEntities (names : Entries) : Entries :=
  (publicNames names).filterMap fun (name, e) =>
    match e with
    | .kind k => some (name, .kind k)
    | .data v => some (name, .data (.str v.display))
    | _ => none

abbrev Loader := Surroundings → String → List Stmt → Except Trouble Entries

def loadedNames (program : List Stmt) (loader : Loader := load) : Entries :=
  match (if file.isModule then loader file.around "temp_module" program else .error "") with
  | .ok names => shownEntities names
  | .error _ => recoverEnumerations program

def soughtClass : Option (ClassHead × List Stmt) := (Stmt.classes program).find? fun c => isLibraryClass c.2

def writtenLibrary (program : List Stmt) (loader : Loader := load) : Highlighting Library :=
  let names := (loadedNames file program loader).foldl (fun names e => names.bind e.1 e.2)
    (writtenConstants program)
  match soughtClass program with
  | some (h, body) => classLibrary config names h body
  | none => liftExcept (functionLibrary file.stem names program)
where
  liftExcept {α : Type} : Except Fault α → Highlighting α
    | .ok a => return a
    | .error f => throw f

def inspectedLibrary (inspector : Inspector) (config : Option Json) (file : SourceFile) :
  Except Fault (List Stmt) → Highlighting Library
  | .ok program =>
    match if file.isModule then inspector file.around file.stem program else none with
    | none => throw .badValue
    | some i => i.library config program
  | .error _ => throw .badValue

def attach (way : Way) (lib : Library) : Highlighting (Way × Library) := do
  modify fun v => { v with attached := some lib.keywordNames, kept := none }
  return (way, lib)

def discover (inspector : Inspector := inspect) (loader : Loader := load) :
    Highlighting (Way × Library) := do
  let source := Program.read file.text
  let found ← tryCatch (do return some (← inspectedLibrary inspector config file source))
    fun _ => return none
  match found, source with
  | some lib, _ => attach .inspected lib
  | none, .ok program => do attach .written (← writtenLibrary config file program loader)
  | none, .error f => throw f

end KeywordDocs.Discovery
