import KeywordDocs.Module.Loading

/-!
# Arguments as Text

How the arguments of an inspected keyword are written: name, type and default in one text, with marks for
those that can only be given by place or only by name.
-/

namespace KeywordDocs.Discovery

open Source KeywordDocs.Module Text

variable (value : Expr → Entity)

mutual

def typeName : Expr → String
  | .name id => id
  | .attribute _ attr => attr
  | .constant (.str s) _ => s
  | .constant .ellipsis _ => "..."
  | .constant v _ => v.display
  | .binary .bitOr left right => typeName left ++ " | " ++ typeName right
  | .subscript value (.tuple items) =>
    let name := typeName value
    if name = "Union" then join " | " (typeNames items)
    else name ++ "[" ++ join ", " (typeNames items) ++ "]"
  | .subscript value index =>
    let name := typeName value
    if name = "Optional" then typeName index ++ " | None"
    else if name = "Union" then typeName index
    else name ++ "[" ++ typeName index ++ "]"
  | .list items => "[" ++ join ", " (typeNames items) ++ "]"
  | _ => "Any"

def typeNames : List Expr → List String
  | [] => []
  | e :: rest => typeName e :: typeNames rest

end

def escapeControls : List Char → List Char
  | [] => []
  | '\\' :: cs => '\\' :: '\\' :: escapeControls cs
  | '\n' :: cs => '\\' :: 'n' :: escapeControls cs
  | '\r' :: cs => '\\' :: 'r' :: escapeControls cs
  | '\t' :: cs => '\\' :: 't' :: escapeControls cs
  | c :: cs => c :: escapeControls cs

def escapeReferences : List Char → List Char
  | c :: '\x7b' :: cs =>
    if c = '$' || c = '@' || c = '&' || c = '%' then '\\' :: c :: '\x7b' :: escapeReferences cs
    else c :: escapeReferences ('\x7b' :: cs)
  | c :: cs => c :: escapeReferences cs
  | [] => []

def escapeSpaces (before : Option Char) : List Char → List Char
  | [] => if before = some ' ' then ['\\'] else []
  | c :: cs =>
    let guard := c = ' ' && (before.isNone || before = some ' ')
    (if guard then ['\\', c] else [c]) ++ escapeSpaces (some c) cs

def escapedDefault (s : String) : String :=
  if s.isEmpty then ""
  else String.ofList (escapeSpaces none (escapeReferences (escapeControls s.toList)))

def defaultShown : Entity → String
  | .data (.str s) => escapedDefault s
  | .data (.member _ _ name _) => name
  | .data v => v.display
  | .kind k => k.asValue.display
  | _ => ""

def argumentText (name : String) (hint default : Option Expr) : String :=
  match hint, default with
  | none, none => name
  | some t, none => name ++ ": " ++ typeName t
  | none, some d => name ++ "=" ++ defaultShown (value d)
  | some t, some d => name ++ ": " ++ typeName t ++ " = " ++ defaultShown (value d)

def takesReceiver : Access → Bool
  | .static => false
  | _ => true

def argumentTexts (hasReceiver : Bool) (p : Parameters) : List String :=
  let all := p.positionalOnly ++ p.positional
  if hasReceiver && all.isEmpty && p.rest.isNone then ["*args"]
  else
    let defaults := List.replicate (all.length - p.defaults.length) none ++ p.defaults.map some
    let shown := (all.zip defaults).map fun a => argumentText value a.1.name a.1.hint a.2
    let skipped := if hasReceiver then 1 else 0
    let first := (shown.take p.positionalOnly.length).drop skipped
    let others := (shown.drop p.positionalOnly.length).drop (skipped - p.positionalOnly.length)
    first ++ (if first.isEmpty then [] else ["/"]) ++ others ++ (match p.rest with
        | some r => [argumentText value ("*" ++ r.name) r.hint none]
        | none => if p.keywordOnly.isEmpty then [] else ["*"]) ++
      ((p.keywordOnly.zip p.keywordDefaults).map fun a =>
        argumentText value a.1.name a.1.hint a.2) ++
      (p.named.toList.map fun n => argumentText value ("**" ++ n.name) n.hint none)

end KeywordDocs.Discovery
