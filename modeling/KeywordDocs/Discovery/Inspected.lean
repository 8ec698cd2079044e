import KeywordDocs.Discovery.ArgumentText
import KeywordDocs.Discovery.ClassLibrary
import KeywordDocs.Discovery.StandardRoutine

/-!
# Inspected Libraries

A library as it is after loading: every public routine of the class named like the file is a keyword,
inherited ones too, and so is every marked one.
-/

namespace KeywordDocs.Discovery

open Source KeywordDocs.Module Highlight Text

variable (value : Expr → Entity) (program : List Stmt)

inductive Subject where
  | kind (k : Kind)
  | module (names : Entries)

variable (s : Subject)

def Subject.entries : Subject → Entries
  | .kind k => k.allEntries
  | .module names => names

structure Candidate where
  key : String
  given : Option Value
  isMarked : Bool
  documentation : String
  arguments : List String
  places : Option Nat
  line : Int

def routineDocumentation (r : Routine) : String :=
  let inherited := match s with
    | .kind k => k.allEntries.findSome? fun e =>
      match e.2 with
      | .routine other _ => if e.1 = r.head.name then documentation? other.body else none
      | _ => none
    | .module _ => none
  (((documentation? r.body).orElse fun _ => inherited).map clean).getD ""

def routineLine (h : Function) : Int :=
  if h.isAsync then h.firstLine else h.line

def lambdaParameters (n : LambdaNames) : Parameters where
  positionalOnly := n.positionalOnly.map ({ name := · })
  positional := n.positional.map ({ name := · })
  rest := n.rest.map ({ name := · })
  keywordOnly := n.keywordOnly.map ({ name := · })
  keywordDefaults := n.keywordOnly.map fun _ => none
  named := n.named.map ({ name := · })

def placesOf (hasReceiver : Bool) (p : Parameters) : Option Nat :=
  if p.rest.isSome then none
  else some ((p.positionalOnly ++ p.positional).length - (if hasReceiver then 1 else 0))

def candidate? (key : String) :
  Entity → Option Candidate
  | .routine r _ =>
    if r.access = .property || r.isHidden then none
    else
      let hasReceiver := match s with
        | .kind _ => takesReceiver r.access
        | .module _ => false
      some { key := key
             given := r.mark.join
             isMarked := r.mark.isSome
             documentation := routineDocumentation s r
             arguments := argumentTexts value hasReceiver r.head.parameters
             places := placesOf hasReceiver r.head.parameters
             line := routineLine r.head }
  | .nameless names _ _ =>
    let hasReceiver := match s with
      | .kind _ => true
      | .module _ => false
    some { key := key
           given := none
           isMarked := false
           documentation := ""
           arguments := argumentTexts value hasReceiver (lambdaParameters names)
           places := placesOf hasReceiver (lambdaParameters names)
           line := 0 }
  | .standard path =>
    match dropPrefix? "builtins.".toList path.toList with
    | none => none
    | some name =>
      (standardRoutine? (String.ofList name)).map fun r =>
        { key := key, given := none, isMarked := false, documentation := r.2
          arguments := r.1, places := none, line := -1 }
  | _ => none

def firstOfEach : Entries → Entries
  | [] => []
  | e :: rest => e :: (firstOfEach rest).filter fun o => o.1 ≠ e.1

def Subject.isAutomatic : Bool :=
  match s.entries.lookup "ROBOT_AUTO_KEYWORDS" with
  | some e => e.isTruthy?.getD true
  | none => true

def Subject.eligible : List Candidate :=
  let listed (name : String) : Bool := match s with
    | .module names =>
      match names.lookup "__all__" with
      | some (.data (.list items)) | some (.data (.tuple items)) => items.any fun v => v.text? == some name
      | _ => true
    | .kind _ => true
  let all := (firstOfEach s.entries).filterMap fun e => candidate? value s e.1 e.2
  let isPublic (c : Candidate) : Bool := s.isAutomatic && !startsWith "_" c.key
  all.filter fun c => listed c.key && (isPublic c || c.isMarked)

def Subject.candidates : List Candidate := (s.eligible value).mergeSort fun a b => a.key ≤ b.key

structure Found where
  name : String
  documentation : String
  arguments : List String
  line : Option Int

def normalName (s : String) : String := lower (String.ofList (s.toList.filter fun c => !isBlank c && c ≠ '_'))

def embeddedCount : List Char → Nat
  | '$' :: '\x7b' :: cs =>
    match cs.dropWhile (· ≠ '\x7d') with
    | '\x7d' :: _ => embeddedCount cs + 1
    | _ => 0
  | _ :: cs => embeddedCount cs
  | [] => 0

def withoutTags (doc : String) : String :=
  let doc := trimRight doc
  match (lines doc).reverse with
  | [] => doc
  | last :: before =>
    if startsWith "tags:" (lower (String.ofList (last.toList.dropWhile (· = ' ')))) then
      trimRight (unlines before.reverse)
    else doc

def Candidate.found (c : Candidate) : Except Unit (Option (Nat × Found)) :=
  let make (name : String) : Option (Nat × Found) :=
    let embedded := embeddedCount name.toList
    if name.isEmpty || (c.places.any fun n => n < embedded) then none
    else some (embedded, ⟨name, withoutTags c.documentation, c.arguments, some c.line⟩)
  match c.given with
  | some (.str s) => .ok (make (if s.isEmpty then printableName c.key else s))
  | some v => if v.isTruthy then .error () else .ok (make (printableName c.key))
  | none => .ok (make (printableName c.key))

def duplicate (name : String) : Found :=
  ⟨name, "*Creating keyword failed:* Keyword with same name defined multiple times.", [], none⟩

def addFound (k : Found) : List Found → List Found
  | [] => [k]
  | f :: rest =>
    if normalName f.name = normalName k.name then duplicate k.name :: rest
    else f :: addFound k rest

def keywordsAmong (cs : List Candidate) : Except Unit (List Found) := do
  let found ← cs.mapM Candidate.found
  let found := found.filterMap id
  let plain := ((found.filter (·.1 = 0)).map Prod.snd).foldl (fun ks k => addFound k ks) []
  let embedded := (found.filter (·.1 ≠ 0)).map Prod.snd
  return plain ++ embedded

def orderFound (ks : List Found) : List Found :=
  (ks.mergeSort fun a b => a.name ≤ b.name).mergeSort fun a b => lower a.name ≤ lower b.name

def Subject.keywords : Except Unit (List Found) := (keywordsAmong (s.candidates value)).map orderFound

def filedMethods (body : List Stmt) : List (String × Function) :=
  (markedMethods body).filterMap fun m => m.1.text?.map fun n => (n, m.2.1)

def methodMap : List (String × Function) := ((Stmt.classes program).flatMap fun c => filedMethods c.2).reverse

def Subject.attributeText (name : String) : String :=
  match s.entries.lookup name with
  | some (.standard path) =>
    "<built-in function " ++ String.ofList ((path.toList.reverse.takeWhile (· ≠ '.')).reverse) ++ ">"
  | some e => (e.value?.map Value.display).getD ""
  | none => ""

def Subject.version : String :=
  let version := s.attributeText "ROBOT_LIBRARY_VERSION"
  if version.isEmpty then s.attributeText "__version__" else version

def Subject.scope : String :=
  match upper (normalName (s.attributeText "ROBOT_LIBRARY_SCOPE")) with
  | "GLOBAL" => "GLOBAL"
  | "SUITE" | "TESTSUITE" => "SUITE"
  | _ => "TEST"

def madeKeyword (resolve : Resolver) (methods : List (String × Function))
  (before : Option (List (String × Value))) (f : Found) : Option Keyword :=
  match methods.lookup f.name with
  | some h => some (keywordOf resolve (.str f.name) h)
  | none => before.map fun defaults =>
    { name := .str f.name
      parameters := f.arguments.map fun a => .entries [.object "ArgInfo" a, .str "Any"]
      defaults := defaults }

def renderFound (config : Option Json) (resolve : Resolver) (methods : List (String × Function)) :
  Option (List (String × Value)) → List Found → Highlighting (List Keyword)
  | _, [] => return []
  | before, f :: rest => do
    let description ← Markup.docstring config f.documentation
    match madeKeyword resolve methods before f with
    | none => throw .unboundName
    | some k =>
      let k := { k with description := description, lineNumber := f.line }
      return k :: (← renderFound config resolve methods (some k.defaults) rest)

def libraryDocumentation (stem : String) (s : Subject) : String :=
  let own := match s with
    | .kind k => ((k.ownEntries.lookup "__doc__").bind Entity.value?).bind Value.text?
    | .module _ => documentation? program
  let own := (own.map clean).getD ""
  if own.isEmpty then "Documentation for library ``" ++ stem ++ "``." else own

def subjectOf? (around : Surroundings) (stem : String) (names : Entries) : Option Subject :=
  match names.lookup stem with
  | some (.kind k) =>
    match instantiate around stem names k with
    | .ok _ => if k.lineage.any fun b => b.isBuiltin && b.name ≠ "object" then none
      else some (.kind k)
    | .error _ => none
  | _ => some (.module names)

def publicNames (names : Entries) : Entries := names.filter fun e => !startsWith "_" e.1

structure Inspection where
  name : String
  version : String
  scope : String
  documentation : String
  keywords : List Found
  names : Entries

abbrev Inspector := Surroundings → String → List Stmt → Option Inspection

def inspectBy (keywords : (Expr → Entity) → Subject → Except Unit (List Found)) : Inspector :=
  fun around stem program =>
    match load around stem program with
    | .error _ => none
    | .ok names => do
      let subject ← subjectOf? around stem names
      let value (e : Expr) : Entity := match valueIn around stem names e with
        | .ok v => v
        | .error _ => .unknown
      match keywords value subject with
      | .error _ => none
      | .ok found =>
        some { name := stem
               version := subject.version
               scope := subject.scope
               documentation := libraryDocumentation program stem subject
               keywords := found
               names := publicNames names }

def inspect : Inspector := inspectBy Subject.keywords

def Inspection.library (config : Option Json) (program : List Stmt) (i : Inspection) :
  Highlighting Library :=
  if i.keywords.isEmpty then throw .badValue
  else do
    let keywords ← renderFound config (resolveAmong i.names) (methodMap program) none i.keywords
    return { name := .str i.name
             version := .str (if i.version.isEmpty then "Unknown" else i.version)
             scope := .str (if i.scope.isEmpty then "TEST" else i.scope)
             description := .str i.documentation
             keywords := keywords }

end KeywordDocs.Discovery
