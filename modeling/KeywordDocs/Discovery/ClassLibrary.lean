import KeywordDocs.Library.Record
import KeywordDocs.Markup.Markdown
import KeywordDocs.Module.Standard
import KeywordDocs.Signature.Annotation

/-!
# Class Libraries

A library that is a class, read as it is written: its marked methods in order, its version and scope from the
assignments in its body.
-/

namespace KeywordDocs.Discovery

open Source KeywordDocs.Module KeywordDocs.Signature

abbrev Resolver := Expr → Option Kind

def defaultName? : Expr → Option String
  | .attribute _ attr => some attr
  | .name id => some id
  | _ => none

def enumInfo (k : Kind) (default : Option String) : Option EnumInfo :=
  k.enumeration?.map fun e =>
    { typeName := .str k.name
      members := e.members.map fun m => ⟨.str m.1, m.2⟩
      default := default.map .str }

structure Signature where
  parameters : List Parameter := []
  enums : List (String × EnumInfo) := []
  defaults : List (String × Value) := []
  returnType : String := "None"

def typeText (p : Param) : String := (p.hint.map methodType).getD "Any"

def putNamed {α : Type} (name : String) (v : α) : List (String × α) → List (String × α)
  | [] => [(name, v)]
  | (n, old) :: rest => if n = name then (n, v) :: rest else (n, old) :: putNamed name v rest

namespace Signature

def add (resolve : Resolver) (s : Signature) (name : String) (p : Param) (default : Option Expr) :
  Signature :=
  let info := (p.hint.bind resolve).bind fun k => enumInfo k (default.bind defaultName?)
  let shown := (default.bind defaultText).filter (!·.isEmpty)
  { s with
    parameters := s.parameters ++ [.named name (typeText p)]
    enums := match info with
      | some e => putNamed name e s.enums
      | none => s.enums
    defaults := match shown with
      | some t => putNamed name (.str t) s.defaults
      | none => s.defaults }

def of (resolve : Resolver) (h : Function) : Signature :=
  let p := h.parameters
  let positional := p.positional.zipIdx.filter fun a => a.1.name ≠ "self"
  let s := positional.foldl (fun s a => s.add resolve a.1.name a.1 (p.defaultAt? a.2)) ({} : Signature)
  let s := p.rest.toList.foldl (fun s a => s.add resolve ("*" ++ a.name) a none) s
  let s := (p.keywordOnly.zip p.keywordDefaults).foldl
    (fun s a => s.add resolve a.1.name a.1 a.2) s
  { s with returnType := (h.returns.map methodType).getD "None" }

end Signature

def resolveAmong (names : Entries) : Resolver
  | .name id =>
    match names.lookup id with
    | some (.kind k) => some k
    | _ => none
  | .attribute (.name id) attr =>
    match names.lookup id with
    | some (.kind k) =>
      match k.entry? attr with
      | some (.kind inner) => some inner
      | _ => none
    | some (.module _ entries) =>
      match entries.lookup attr with
      | some (.kind inner) => some inner
      | _ => none
    | some (.standard path) =>
      match Module.standardPart path attr with
      | some (.kind inner) => some inner
      | _ => none
    | _ => none
  | _ => none

end KeywordDocs.Discovery

namespace KeywordDocs.Discovery

open Source Text

variable (function : String) (c : Char)

def titledName : String := title (replace "_" " " function)

def isUpper : Bool := isCased c && lowerChar c ≠ [c]

def isLower : Bool := isCased c && lowerChar c = [c]

def isLetter : Bool := isWord c && !isDigit c && c ≠ '_'

def startsWord (before c after : Char) : Bool :=
  if isDigit before then !isDigit c
  else if isUpper c then isLower after || (isLetter before && !isUpper before)
  else isDigit c

def camelWords : List Char → List (List Char)
  | [] => []
  | c :: cs =>
    match cs, camelWords cs with
    | next :: after, w :: ws =>
      if startsWord c next (after.headD ' ') then [c] :: w :: ws else (c :: w) :: ws
    | _, _ => [[c]]

def capitalized : List Char → List Char
  | [] => []
  | c :: cs => upperChar c ++ cs

def blankWords (cs : List Char) : List (List Char) :=
  ((splitAtChar ' ' (cs.map fun c => if isBlank c then ' ' else c)).filter (!·.isEmpty))

def printableName : String :=
  let cs := function.toList.map fun c => if c = '_' then ' ' else c
  let words := match blankWords cs with
    | [w] => if cs.all fun c => isLetter c && isLower c then [w] else camelWords w
    | words => words
  join " " (words.map fun w => String.ofList (capitalized w))

inductive Marking where
  | plain
  | named (v : Value)

def Marking.of? : Expr → Option Marking
  | .name id => if id = "keyword" then some .plain else none
  | .call (.name id) (.constant v _ :: _) _ => if id = "keyword" then some (.named v) else none
  | .call (.name id) _ _ => if id = "keyword" then some .plain else none
  | _ => none

def Marking.nameFor : Marking → Value
  | .plain => .str (titledName function)
  | .named v => v

def lastMarkedName (h : Function) : Option Value :=
  (((h.decorators.filterMap Marking.of?).getLast?).map (Marking.nameFor h.name)).filter
    Value.isTruthy

def firstMarkedName (h : Function) : Option Value :=
  (((h.decorators.filterMap Marking.of?).head?).map (Marking.nameFor h.name)).filter
    Value.isTruthy

def isMarked (h : Function) : Bool := h.decorators.any fun d => (Marking.of? d).isSome

end KeywordDocs.Discovery

namespace KeywordDocs.Discovery

open Source KeywordDocs.Module Highlight

variable (names : Entries) (body : List Stmt)

def cleanDocumentation : String := ((documentation? body).map Text.clean).getD ""

def keywordOf (resolve : Resolver) (name : Value) (h : Function) : Keyword :=
  let s := Signature.of resolve h
  { name := name
    parameters := s.parameters
    returnType := s.returnType
    lineNumber := some h.line
    enums := s.enums
    defaults := s.defaults }

def leadingKeyword (config : Option Json) : List Stmt → Highlighting (Option Keyword)
  | [] => throw .outOfRange
  | .function h body :: _ =>
    match lastMarkedName h with
    | none => return none
    | some name => do
      let description ← Markup.docstring config (cleanDocumentation body)
      let k := keywordOf (fun _ => none) name h
      return some { k with description := description, enums := [], defaults := [] }
  | .class h _ :: _ =>
    match lastMarkedName { name := h.name, decorators := h.decorators } with
    | none => return none
    | some _ => throw .missingAttribute
  | _ => throw .missingAttribute

def shownName? (id : String) : Option Value :=
  (names.lookup id).bind fun e =>
    match e with
    | .data v => some v
    | .kind k => some k.asValue
    | _ => none

def plainFunction? : Stmt → Option (Function × List Stmt)
  | .function h body => if h.isAsync then none else some (h, body)
  | _ => none

def isLibraryClass : Bool := (body.filterMap plainFunction?).any fun f => isMarked f.1

def calledName : Expr → Value
  | .name id =>
    match shownName? names id with
    | some v => if id = "__version__" || id = "version" then v else .str v.display
    | none => .str "Unknown"
  | _ => .str "Unknown"

def attributeValue? : Expr → Option Value
  | .constant v _ => some (.str v.display)
  | .name id => some ((shownName? names id).getD (.str id))
  | .call function _ _ => some (calledName names function)
  | _ => none

def classAttribute (attr : String) (missing : String) (body : List Stmt) : Value :=
  (body.findSome? fun s =>
    match s with
    | .assign targets value =>
      if targets.any fun t => match t with
        | .name id => id = attr
        | _ => false
      then attributeValue? names value else none
    | _ => none).getD (.str missing)

def followName (v : Value) : Value := (v.text?.bind (shownName? names)).getD v

def markedMethods : List (Value × Function × List Stmt) :=
  (body.filterMap plainFunction?).filterMap fun f => (lastMarkedName f.1).map fun n => (n, f)

def classLibrary (config : Option Json) (names : Entries) (h : ClassHead) (body : List Stmt) :
  Highlighting Library := do
  let methods := markedMethods body
  let keywords := methods.map fun m => keywordOf (resolveAmong names) m.1 m.2.1
  modify fun v => { v with attached := some (keywords.map (·.name)), kept := none }
  let keywords ← (keywords.zip methods).mapM fun (k, m) => do
    return { k with description := ← Markup.docstring config (cleanDocumentation m.2.2) }
  return { name := .str h.name
           version := followName names (classAttribute names "ROBOT_LIBRARY_VERSION" "Unknown" body)
           scope := followName names (classAttribute names "ROBOT_LIBRARY_SCOPE" "TEST" body)
           description := (leadingLiteral? body).getD (.str "")
           keywords := keywords }

end KeywordDocs.Discovery
