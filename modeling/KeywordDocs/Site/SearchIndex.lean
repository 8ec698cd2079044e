import KeywordDocs.Page.Html

/-!
# Library Cards and the Search Index

What a site knows about each of its libraries: where its page is, who made it, and a summary of each
keyword.
-/

namespace KeywordDocs.Site

open Text

def upToIndex {α : Type} (n : Int) (l : List α) : List α :=
  if 0 ≤ n then l.take n.toNat else l.take (l.length - (-n).toNat)

def lastBreak (cs : List Char) : Int :=
  let after := cs.reverse.takeWhile fun c => c ≠ ' ' && c ≠ '.' && c ≠ '\n'
  (cs.length : Int) - after.length - 1

def truncate (limit : Int) (s : String) : String :=
  let cs := s.toList
  if cs.isEmpty then ""
  else if (cs.length : Int) ≤ limit then s
  else
    let place := lastBreak (upToIndex limit cs)
    let kept := if Float.ofInt place > Float.ofInt limit * 0.7 then place else limit
    String.ofList (trimRightChars (upToIndex kept cs)) ++ "..."

def summaryLimit : Nat := 150

def combine (acc : String) : List String → String
  | [] => acc
  | line :: rest =>
    let next := if acc.isEmpty then trim line else acc ++ " " ++ trim line
    if summaryLimit ≤ next.length then next else combine next rest

def summary (description : String) : String :=
  if description.isEmpty then ""
  else truncate summaryLimit (combine "" ((lines (Page.plainText description)).take 3))

structure KeywordSummary where
  name : Value
  doc : String

structure Card where
  name : Option Value := none
  url : Value := .str ""
  /-- The keywords; nothing if there is no list, and for each entry nothing if it is no record. -/
  keywords : Option (List (Option KeywordSummary)) := some []
  description : Value := .str ""
  version : Value := .str ""
  keywordCount : Value := .int 0
  author : Value := .str ""
  maintainer : Value := .str ""
  license : Value := .str ""
  robotFramework : Value := .str ""
  python : Value := .str ""
  group : Value := .none

variable (c : Card)

def settingOf (config : Option Json) (key : String) : Value :=
  match config.bind (Json.field? key) with
  | some v => .ofJson v
  | none => .none

def cardDescription (lib : Library) (own merged : Option Json) : Except Fault Value :=
  let first := settingOf own "description"
  let second := settingOf merged "description"
  if first.isTruthy then .ok first
  else if second.isTruthy then .ok second
  else if !lib.description.isTruthy then .ok (.str "")
  else match lib.description with
    | .str s => .ok (.str (Page.plainText (trim ((lines s).headD ""))))
    | _ => .error .missingAttribute

def Card.collect (lib : Library) (name : Value) (url : String) (own merged : Option Json) :
  Except Fault Card := do
  let own := own.filter Json.isTruthy
  let merged := merged.filter Json.isTruthy
  let source := merged <|> own
  let description ← cardDescription lib own merged
  return {
    name := some name
    url := .str url
    keywords := some (lib.keywords.map fun k => some ⟨k.name, summary k.description⟩)
    description := description
    version := if lib.version.isTruthy then lib.version
      else if own.isSome then settingOf own "version" else .str ""
    keywordCount := .int lib.keywords.length
    author := settingOf source "author"
    maintainer := settingOf source "maintainer"
    license := settingOf source "license"
    robotFramework := settingOf source "robot_framework"
    python := settingOf source "python"
    group := settingOf source "group" }

def KeywordSummary.ofJson : Json → Option KeywordSummary
  | .obj members => some {
      name := ((Json.member? "name" members).map Value.ofJson).getD (.str "")
      doc := (((Json.member? "doc" members).bind Json.text?).getD "") }
  | _ => none

def Card.ofJson (j : Json) : Card :=
  let get (key : String) (missing : Value) := ((j.field? key).map Value.ofJson).getD missing
  { name := (j.field? "name").map Value.ofJson
    url := get "url" (.str "")
    keywords := match j.field? "keywords" with
      | none => some []
      | some (.arr items) => some (items.map KeywordSummary.ofJson)
      | some _ => none
    description := get "description" (.str "")
    version := get "version" (.str "")
    keywordCount := get "keyword_count" (.int 0)
    author := get "author" (.str "")
    maintainer := get "maintainer" (.str "")
    license := get "license" (.str "")
    robotFramework := get "robot_framework" (.str "")
    python := get "python" (.str "")
    group := get "group" .none }

def libraryRecord : Json :=
  .obj ([("type", .str "library"), ("name", (c.name.getD (.str "")).toJson),
    ("description", c.description.toJson), ("url", c.url.toJson), ("author", c.author.toJson),
    ("maintainer", c.maintainer.toJson), ("license", c.license.toJson)] ++
    (if c.group.isTruthy then [("group", c.group.toJson)] else []))

def keywordRecord : Option KeywordSummary → Except Fault Json
  | none => .error .missingAttribute
  | some k => do
    let name ← Page.nameText k.name
    return .obj [("type", .str "keyword"), ("library", (c.name.getD (.str "")).toJson),
      ("keyword", .str name), ("url", .str (c.url.display ++ "#" ++ Page.keywordId name)),
      ("library_license", c.license.toJson)]

def cardRecords : Except Fault (List Json) :=
  match c.keywords with
  | none => .error .wrongKind
  | some keywords => do return libraryRecord c :: (← keywords.mapM (keywordRecord c))

def searchIndex (cards : List Card) : Except Fault Json := do
  return .arr (← cards.mapM cardRecords).flatten

def Card.toJson : Json :=
  .obj [("name", (c.name.getD .none).toRecord), ("url", c.url.toJson),
    ("keywords", match c.keywords with
      | some ks => .arr (ks.map fun
        | some k => .obj [("name", k.name.toRecord), ("doc", .str k.doc)]
        | none => .null)
      | none => .null),
    ("description", c.description.toJson), ("version", c.version.toRecord),
    ("keyword_count", c.keywordCount.toJson), ("author", c.author.toJson),
    ("maintainer", c.maintainer.toJson), ("license", c.license.toJson),
    ("robot_framework", c.robotFramework.toJson), ("python", c.python.toJson),
    ("group", c.group.toJson)]

end KeywordDocs.Site
