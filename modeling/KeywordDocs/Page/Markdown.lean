import KeywordDocs.Library.Record
import KeywordDocs.Markup.Inline

/-!
# Markdown Pages

The page of a library in Markdown. Descriptions are kept as markup, so elements are converted back one kind
after another, and all tags that are left are removed.
-/

namespace KeywordDocs.Page

open Text Markup

variable (cs : List Char) (k : Keyword) (s : String)

def decode (table : List (String × String)) (cs : List Char) : List Char :=
  table.foldl (fun cs entry => replaceChars entry.1.toList entry.2.toList cs) cs

def markdownEntities : List (String × String) :=
  [("&quot;", "\""), ("&amp;", "&"), ("&lt;", "<"), ("&gt;", ">"), ("&nbsp;", " ")]

def summaryEntities : List (String × String) :=
  [("&nbsp;", " "), ("&amp;", "&"), ("&lt;", "<"), ("&gt;", ">"), ("&quot;", "\""), ("&#39;", "'")]

def spanContent : Recogniser (List Char) := fun _ cs => do
  let (rest, opening) ← openTag? "<span".toList cs
  let (body, _) ← splitAtFirst "</span>".toList rest
  return (body, opening + body.length + 7)

def stripMarkup : List Char := withoutTags (replaceFinds spanContent (decode markdownEntities cs))

def plainText : String := String.ofList (trimChars (decode summaryEntities (withoutTags s.toList)))

def codeElement : Recogniser (List Char) := fun _ cs => do
  let opening := "<div class=\"code-block\"><pre class=\"language-".toList
  let rest ← dropPrefix? opening cs
  match rest.span (· ≠ '"') with
  | (l :: anguage, '"' :: '>' :: rest) =>
    let language := l :: anguage
    let (body, _) ← splitAtFirst "</pre></div>".toList rest
    return ("```".toList ++ language ++ '\n' :: trimChars (stripMarkup body) ++ "\n```".toList,
      opening.length + language.length + 2 + body.length + 12)
  | _ => none

def cellTag? : Option (List Char × Nat) := openTag? "<td".toList cs <|> openTag? "<th".toList cs

def beforeFirst (closings : List (List Char)) : List Char → Option (List Char × Nat)
  | [] => none
  | c :: cs =>
    match closings.find? fun closing => closing.isPrefixOf (c :: cs) with
    | some closing => some ([], closing.length)
    | none => (beforeFirst closings cs).map fun (body, n) => (c :: body, n)

def cellContent : Recogniser (List Char) := fun _ cs => do
  let (rest, opening) ← cellTag? cs
  let (body, closing) ← beforeFirst ["</td>".toList, "</th>".toList] rest
  return (trimChars (stripMarkup body), opening + body.length + closing)

def tableRows : List (List String) :=
  ((finds (enclosed "<tr>" "</tr>" id) cs).map fun row =>
    (finds cellContent row).map String.ofList).filter fun cells => !cells.isEmpty

def barred (cells : List String) : String := "| " ++ join " | " cells ++ " |"

def tableToMarkdown : List Char :=
  match tableRows cs with
  | [] => []
  | head :: rows =>
    (unlines (barred head :: barred (head.map fun _ => "---") :: rows.map barred) ++ "\n\n").toList

def tableElement : Recogniser (List Char) := fun _ cs => do
  let (rest, opening) ← openTag? "<table".toList cs
  let (body, _) ← splitAtFirst "</table>".toList rest
  return (tableToMarkdown body, opening + body.length + 8)

def linkAt? (before : Nat) : Option (List Char × Nat) := do
  let rest ← dropPrefix? "href=\"".toList (cs.drop before)
  match rest.span (· ≠ '"') with
  | (target, _ :: rest) =>
    match rest.span (· ≠ '>') with
    | (attributes, _ :: rest) =>
      let label ← upTo "</a>".toList rest
      return ('[' :: label ++ "](".toList ++ target ++ [')'],
        before + 6 + target.length + 1 + attributes.length + 1 + label.length + 4)
    | _ => none
  | _ => none

def linkElement : Recogniser (List Char) := fun _ cs => do
  let rest ← dropPrefix? "<a".toList cs
  let room := (rest.takeWhile (· ≠ '>')).length
  (List.range (room + 1)).reverse.findSome? fun k => linkAt? cs (k + 2)

def isLevel (c : Char) : Bool := '1' ≤ c && c ≤ '6'

def upToHeadingEnd : List Char → Option (List Char)
  | [] => none
  | c :: cs =>
    match c :: cs with
    | '<' :: '/' :: 'h' :: d :: '>' :: _ =>
      if isLevel d then some [] else (upToHeadingEnd cs).map (c :: ·)
    | _ => if c = '\n' then none else (upToHeadingEnd cs).map (c :: ·)

def headingElement : Recogniser (List Char)
  | _, '<' :: 'h' :: d :: '>' :: cs =>
    if isLevel d then do
      let body ← upToHeadingEnd cs
      return (List.replicate (d.toNat - 48) '#' ++ ' ' :: body ++ ['\n'], body.length + 9)
    else none
  | _, _ => none

def emptyLines : Recogniser (List Char) := fun _ cs =>
  let n := (cs.takeWhile (· = '\n')).length
  if 3 ≤ n then some (['\n', '\n'], n) else none

def elementRecognisers : List (Recogniser (List Char)) :=
  [codeElement, enclosedLine "<code>" "</code>" fun body => '`' :: body ++ ['`'],
    enclosedLine "<strong>" "</strong>" fun body => "**".toList ++ body ++ "**".toList,
    enclosedLine "<em>" "</em>" fun body => '*' :: body ++ ['*'],
    enclosedLine "<i>" "</i>" fun body => '*' :: body ++ ['*'],
    enclosed "<p>" "</p>" fun body => body ++ ['\n', '\n'],
    enclosed "<ul>" "</ul>" id,
    enclosed "<ol>" "</ol>" id,
    enclosed "<li>" "</li>" fun body => "- ".toList ++ body ++ ['\n'],
    tableElement, linkElement, headingElement]

def toMarkdown : String :=
  let cs := elementRecognisers.foldl (fun cs r => replaceFinds r cs) s.toList
  String.ofList (trimChars (replaceFinds emptyLines (stripMarkup cs)))

def showsReturnType : Bool := k.returnType ≠ "" && k.returnType ≠ "None"

def ticked : String := "`" ++ s ++ "`"

def isKey : Value → Bool
  | .list _ | .dict _ | .set _ => false
  | _ => true

def lookupName {α : Type} (table : List (String × α)) (name : Value) : Except Fault (Option α) :=
  if table.isEmpty then .ok none
  else if !isKey name then .error .wrongKind
  else .ok (name.text?.bind fun n => table.lookup n)

def shownDefault (name : Value) (info : Option EnumInfo) : Except Fault (Option String) := do
  match (info.bind (·.default)).filter Value.isTruthy with
  | some v => return some v.display
  | none => return (← lookupName k.defaults name).map Value.display

def parameterLines (p : Parameter) : Except Fault (List String) := do
  let (name, type) ← p.pair
  let info ← lookupName k.enums name
  let dflt := match ← shownDefault k name info with
    | some s => " = " ++ ticked s
    | none => ""
  let head := "- " ++ ticked name.display ++ " : " ++ ticked type.display ++ dflt
  match info with
  | none => return [head]
  | some info => return [head, "", "  Allowed values:"] ++ info.members.map fun m =>
    "  - " ++ ticked m.name.display ++ " = " ++ ticked m.value.literal

def keywordLines : Except Fault (List String) := do
  let description :=
    if k.description.isEmpty then [] else [toMarkdown k.description, ""]
  let parameters ← if k.parameters.isEmpty then pure [] else do
    let ls ← k.parameters.mapM (parameterLines k)
    pure (["**Parameters:**", ""] ++ ls.flatten ++ [""])
  let returns := if showsReturnType k then ["**Returns:** " ++ ticked k.returnType, ""] else []
  let sample := if k.sample.isEmpty then []
    else ["**Example:**", "", "```robot", k.sample, "```", ""]
  return ["### " ++ k.name.display, ""] ++ description ++ parameters ++ returns ++ sample

def shownName (config : Json) (lib : Library) : Value :=
  match config.field? "name" with
  | some name => .ofJson name
  | none => lib.name

def descriptionLines (description : Value) : Except Fault (List String) :=
  if !description.isTruthy then .ok []
  else match description with
    | .str s => .ok ["## Description", "", toMarkdown s, ""]
    | _ => .error .wrongKind

def markdown (config : Json) (lib : Library) : Except Fault String := do
  let description ← descriptionLines lib.description
  let keywords ← lib.keywords.mapM keywordLines
  return unlines (["# " ++ (shownName config lib).display, "",
    "**Version:** " ++ lib.version.display, "**Scope:** " ++ lib.scope.display, ""] ++
    description ++ ["## Keywords", ""] ++ keywords.flatten)

end KeywordDocs.Page
