import KeywordDocs.Command.Session
import KeywordDocs.Discovery.Source
import KeywordDocs.Site.SearchIndex
import KeywordDocs.Site.Settings

/-!
# Making a Page

The page of one library, from its source to the written file.
-/

namespace KeywordDocs.Command

open Files Report Highlight Site Discovery

variable (c : Conditions) (format : Json)

structure PageOrder where
  input : String
  output : Option String := none
  format : Json
  config : Json
  own : Option Json := none
  wantsCard : Bool := false

variable (o : PageOrder)

structure PageDone where
  path : String
  keywords : Nat
  card : Option Card := none

def isMarkdown : Bool := format.text? = some "markdown"

def isHtml : Bool := format.text? = some "html"

def pageSettings (settings : Json) : Except Fault Json :=
  match settings with
  | .obj members => .ok (.obj members)
  | other => if other.isTruthy then .error .missingAttribute else .ok (.obj [])

def pageContent (format settings : Json) (lib : Library) : Highlighting String :=
  match pageSettings settings with
  | .error f => throw f
  | .ok settings =>
    if isMarkdown format then
      match Page.markdown settings lib with
      | .ok text => return text
      | .error f => throw f
    else Page.html c.template settings lib c.now true

def defaultOutput (input : String) (format : Json) : String :=
  (Path.ofText input).stem ++ (if isMarkdown format then ".md" else ".html")

def pageUrl (p : Path) : String :=
  let parts := p.components
  if 2 ≤ parts.length then Text.join "/" (parts.drop (parts.length - 2)) else p.name

def ownMembers : Option Json → List (String × Json)
  | some (.obj members) => members
  | _ => []

def cardName (own : Option Json) (lib : Library) : Value :=
  match (Json.member? "name" (ownMembers own)).filter Json.isTruthy with
  | some name => .ofJson name
  | none => lib.name

def PageOrder.path : String := (o.output.filter (· ≠ "")).getD (defaultOutput o.input o.format)

structure Draft where
  lib : Library
  settings : Json
  text : String

/-- The library in a source, with the highlighter that it is attached to. -/
def Conditions.find (settings : Json) (file : SourceFile) :
  Except Fault (Way × Library) × Vocabulary :=
  StateT.run (discover (some settings) file (c.inspector c.taken) (c.loader c.taken)).run
    { shade := c.shader }

def draftPage (disk : Disk) : Except Failure (Problem ⊕ Draft) := do
  let settings ← (mergedSettings o.config (ownMembers o.own)).mapError .ofFault
  match SourceFile.onDisk disk o.input with
  | .error f => return .inl (.unreadable o.input (Failure.ofFile o.input f).message)
  | .ok file =>
    let (found, vocabulary) := c.find settings file
    match found with
    | .error f => return .inl (.unreadable o.input (Failure.ofFault f).message)
    | .ok (_, lib) =>
      if lib.keywords.isEmpty then return .inl .noKeywords
      let text ← (StateT.run (pageContent c o.format settings lib).run vocabulary).1.mapError .ofFault
      return .inr { lib, settings, text }

def collectCard (draft : Draft) : Except Failure (Option Card) :=
  if o.wantsCard && isHtml o.format then
    ((Card.collect draft.lib (cardName o.own draft.lib) (pageUrl (Path.ofText o.path)) o.own
      (some draft.settings)).map some).mapError .ofFault
  else .ok none

def finishPage : Problem ⊕ Draft → Run (Option PageDone)
  | .inl p => do
    report c p
    return none
  | .inr draft => do
    ensureDirectory (Path.ofText o.path).parent
    let card ← orFail (collectCard o draft)
    writeText o.path draft.text
    return some { path := o.path, keywords := draft.lib.keywords.length, card }

def makePage : Run (Option PageDone) := do
  finishPage c o (← orFail (draftPage c o (← get).disk))

end KeywordDocs.Command
