import KeywordDocs.Fault
import KeywordDocs.Json.Basic

/-!
# Settings

What a configuration says about the mode of a run and about each library.
-/

namespace KeywordDocs.Site

def isMultiLibrary (config : Json) : Bool :=
  match config.field? "libraries" with
  | some (.arr items) => !items.isEmpty
  | _ => false

def forbiddenKeys (config : Json) : List String :=
  ["site", "libraries"].filter fun key => (config.field? key).isSome

def outputFilename (library : Json) (format : String) : Json :=
  match (library.field? "output_file").filter Json.isTruthy with
  | some name => name
  | none => .str (if format = "markdown" then "index.md" else "index.html")

def outputFormat (library : Json) (asked : String) : Json :=
  match (library.field? "output_format").filter Json.isTruthy with
  | some format => format
  | none => .str asked

def siteFields : List String :=
  ["author", "maintainer", "license", "robot_framework", "python", "github_url", "library_url",
    "support_email"]

def overlay (base top : List (String × Json)) : List (String × Json) :=
  top.foldl (fun members m => Json.setMember m.1 m.2 members) base

def fillFrom (site : List (String × Json)) (base : List (String × Json)) : List (String × Json) :=
  siteFields.foldl (fun members key =>
    match Json.member? key site, Json.member? key members with
    | some v, none => Json.setMember key v members
    | _, _ => members) base

def mergedMembers (common own : List (String × Json)) : List (String × Json) :=
  let given := overlay common (own.filter fun m => m.2.isTruthy)
  let filled := match Json.member? "site" common with
    | some (.obj site) => fillFrom site given
    | _ => given
  if own.isEmpty then filled
  else match Json.member? "site" common with
    | some site => Json.setMember "site" site (overlay filled own)
    | none => overlay filled own

def namesSite (items : List Json) : Bool := items.any fun v => v.text? = some "site"

def mergedSettings (common : Json) (own : List (String × Json)) : Except Fault Json :=
  match common with
  | .obj members => .ok (.obj (mergedMembers members own))
  | .arr items =>
    if own.any (fun m => m.2.isTruthy) || namesSite items then .error .wrongKind
    else if !own.isEmpty then .error .missingAttribute
    else .ok (.arr items)
  | _ => .error .missingAttribute

end KeywordDocs.Site
