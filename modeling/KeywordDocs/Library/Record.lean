import KeywordDocs.Fault
import KeywordDocs.Value.Shown

/-!
# Documented Libraries

What is known about a library of keywords: its name, version, scope and description, and for each
keyword its documentation and signature.
-/

namespace KeywordDocs

variable (j : Json) (key : String)

inductive Parameter where
  /-- Name and type, if there are just two entries. -/
  | entries (items : List Value)
  /-- Name, type and default in one text. -/
  | text (s : String)
  /-- A value that has no entries. -/
  | single (v : Value)

def Parameter.named (name type : String) : Parameter := .entries [.str name, .str type]

def Parameter.pair : Parameter → Except Fault (Value × Value)
  | .entries [name, type] => .ok (name, type)
  | .entries _ => .error .badValue
  | .text s =>
    match s.toList with
    | [a, b] => .ok (.str (String.singleton a), .str (String.singleton b))
    | _ => .error .badValue
  | .single _ => .error .wrongKind

structure EnumMember where
  name : Value
  value : Value

structure EnumInfo where
  typeName : Value
  members : List EnumMember
  default : Option Value := none

structure Keyword where
  name : Value
  description : String := ""
  sample : String := ""
  parameters : List Parameter := []
  returnType : String := "None"
  /-- Where it is defined; nothing for a keyword that could not be created. -/
  lineNumber : Option Int := some 0
  enums : List (String × EnumInfo) := []
  defaults : List (String × Value) := []

structure Library where
  name : Value
  version : Value
  scope : Value
  description : Value
  keywords : List Keyword := []

def Library.keywordNames (lib : Library) : List Value := lib.keywords.map (·.name)

def Json.valueOr (missing : Value) : Value := ((j.field? key).map Value.ofJson).getD missing

def Json.textOr (missing : String) : String :=
  match j.field? key with
  | none => missing
  | some .null => ""
  | some v => v.display

def Json.itemsOf : List Json :=
  match j.field? key with
  | some (.arr items) => items
  | _ => []

def Json.membersOf : List (String × Json) :=
  match j.field? key with
  | some (.obj members) => members
  | _ => []

def Parameter.ofJson : Json → Parameter
  | .arr items => .entries (Value.ofJsonItems items)
  | .obj members => .entries (members.map fun m => .str m.1)
  | .str s => .text s
  | v => .single (.ofJson v)

def EnumInfo.ofJson : EnumInfo where
  typeName := j.valueOr "type_name" (.str "")
  members := (j.itemsOf "members").map fun m => ⟨m.valueOr "name" (.str ""), m.valueOr "value" (.str "")⟩
  default := (j.field? "default").map Value.ofJson

def Keyword.ofJson : Keyword where
  name := j.valueOr "name" (.str "")
  description := j.textOr "description" ""
  sample := j.textOr "example" ""
  parameters := (j.itemsOf "parameters").map Parameter.ofJson
  returnType := j.textOr "return_type" "None"
  lineNumber := match j.field? "line_number" with
    | some (.int n) => some n
    | _ => some 0
  enums := ((j.membersOf "parameter_enums").filter fun m => m.2.isTruthy).map fun m =>
    (m.1, EnumInfo.ofJson m.2)
  defaults := (j.membersOf "parameter_defaults").map fun m => (m.1, .ofJson m.2)

def Library.ofJson : Library where
  name := j.valueOr "name" (.str "")
  version := j.valueOr "version" (.str "")
  scope := j.valueOr "scope" (.str "")
  description := j.valueOr "description" (.str "")
  keywords := (j.itemsOf "keywords").map Keyword.ofJson

def Value.toRecord : Value → Json
  | .none => .null
  | .bool b => .bool b
  | .int n => .int n
  | .float x => .float x
  | .str s => .str s
  | v => v.described

def Parameter.toJson : Parameter → Json
  | .entries items => .arr (items.map fun v =>
    match v with
    | .object _ shown => .str shown
    | v => v.toRecord)
  | .text s => .str s
  | .single v => v.toRecord

def EnumInfo.toJson (e : EnumInfo) : Json :=
  .obj ([("type_name", e.typeName.toRecord),
    ("members", .arr (e.members.map fun m => .obj [("name", m.name.toRecord),
      ("type", .str m.value.kindName), ("repr", .str m.value.literal)]))] ++
    (match e.default with
      | some v => [("default", v.toRecord)]
      | none => []))

def Keyword.toJson (k : Keyword) : Json :=
  .obj [("name", k.name.toRecord), ("description", .str k.description), ("example", .str k.sample),
    ("parameters", .arr (k.parameters.map Parameter.toJson)), ("return_type", .str k.returnType),
    ("line_number", (k.lineNumber.map Json.int).getD .null),
    ("parameter_enums", .obj (k.enums.map fun e => (e.1, e.2.toJson))),
    ("parameter_defaults", .obj (k.defaults.map fun d => (d.1, d.2.toRecord)))]

def Library.toJson (lib : Library) : Json :=
  .obj [("name", lib.name.toRecord), ("version", lib.version.toRecord),
    ("scope", lib.scope.toRecord), ("description", lib.description.toRecord),
    ("keywords", .arr (lib.keywords.map Keyword.toJson))]

end KeywordDocs
