import KeywordDocs.Highlight.Names
import KeywordDocs.Markup.Inline
import KeywordDocs.Source.Parser

/-!
# The Vocabulary of a Highlighter

The names a highlighter takes for keywords: those of the standard libraries, of the library that is attached
to it, and of a configuration.
-/

namespace KeywordDocs.Highlight

open Text

variable (config : Option Json) (names : List String) (code before : String)

inductive Tone where
  | plain
  | reserved
  | wordOperator
  | routineName
  | className
  | builtIn
  | operator
  | number
  | quoted
  | comment

def Tone.style? : Tone → Option String
  | .plain => none
  | .reserved => some "color: #008000; font-weight: bold"
  | .wordOperator => some "color: #AA22FF; font-weight: bold"
  | .routineName => some "color: #0000FF"
  | .className => some "color: #0000FF; font-weight: bold"
  | .builtIn => some "color: #008000"
  | .operator => some "color: #666666"
  | .number => some "color: #666666"
  | .quoted => some "color: #BA2121"
  | .comment => some "color: #3D7B7B; font-style: italic"

def Tone.span (t : Tone) (cs : List Char) : String :=
  let body := Markup.escapeCode (String.ofList cs)
  match t.style? with
  | none => body
  | some style => "<span style=\"" ++ style ++ "\">" ++ body ++ "</span>"

def operatorWords : List String := ["and", "in", "is", "not", "or"]

def builtInNames : List String :=
  ["abs", "all", "any", "bool", "bytes", "callable", "chr", "dict", "dir", "enumerate", "filter",
    "float", "format", "frozenset", "getattr", "hasattr", "hash", "id", "int", "isinstance", "iter",
    "len", "list", "map", "max", "min", "next", "object", "open", "ord", "print", "property",
    "range", "repr", "reversed", "round", "set", "setattr", "slice", "sorted", "staticmethod", "str",
    "sum", "super", "tuple", "type", "vars", "zip"]

def isOperatorChar (c : Char) : Bool := "-~+/*%=<>&^|.!".toList.contains c

def nameTone (name : String) : Tone :=
  if before = "def" then .routineName
  else if before = "class" then .className
  else if operatorWords.contains name then .wordOperator
  else if Source.isReserved name then .reserved
  else if builtInNames.contains name then .builtIn
  else .plain

def quotedRun (mark : Char) : List Char → List Char × List Char
  | [] => ([], [])
  | '\\' :: c :: cs => let (run, rest) := quotedRun mark cs; ('\\' :: c :: run, rest)
  | c :: cs =>
    if c = mark then ([c], cs)
    else if c = '\n' then ([], c :: cs)
    else let (run, rest) := quotedRun mark cs; (c :: run, rest)

def stretchAt (c : Char) (cs : List Char) : Tone × List Char × List Char :=
  if isWord c && !c.isDigit then
    let (run, rest) := cs.span isWord
    (nameTone before (String.ofList (c :: run)), c :: run, rest)
  else if c.isDigit then
    let (run, rest) := cs.span fun d => d.isDigit || d = '.'
    (.number, c :: run, rest)
  else if c = '#' then
    let (run, rest) := cs.span (· ≠ '\n')
    (.comment, c :: run, rest)
  else if c = '"' || c = '\'' then
    let (run, rest) := quotedRun c cs
    (.quoted, c :: run, rest)
  else if isOperatorChar c then
    let (run, rest) := cs.span isOperatorChar
    (.operator, c :: run, rest)
  else (.plain, [c], cs)

def nameBefore (run : List Char) : String :=
  if run = [' '] then before else String.ofList run

def tonedFrom : Nat → String → List Char → String
  | _, _, [] => ""
  | 0, _, _ => ""
  | n + 1, before, c :: cs =>
    let (tone, run, rest) := stretchAt before c cs
    tone.span run ++ tonedFrom n (nameBefore before run) rest

def toned : String := tonedFrom code.length "" code.toList

abbrev Shader := String → String → String

def isPlainText (language : String) : Bool := lower language == "text"

def normalCode : String :=
  match code.toList with
  | '\ufeff' :: cs => String.ofList (uniformLines cs)
  | cs => String.ofList (uniformLines cs)

def plainShade (language code : String) : String :=
  let code := normalCode code
  Markup.escapeCode (if isPlainText language then trim code else trimOf (· == '\n') code)

def programShade : String := toned (trimOf (· == '\n') (normalCode code))

def standardShader : Shader := fun language code =>
  if language = "python" then programShade code else plainShade language code

structure Vocabulary where
  attached : Option (List Value) := none
  kept : Option (List String) := none
  shade : Shader := standardShader

abbrev Highlighting := ExceptT Fault (StateM Vocabulary)

def customNames : List Value :=
  match config.bind (Json.field? "custom_keywords") with
  | some (.arr items) => Value.ofJsonItems items
  | _ => []

def dropRepeats : List String → List String
  | a :: b :: rest => if a = b then dropRepeats (b :: rest) else a :: dropRepeats (b :: rest)
  | short => short

def sortedNames : List String := dropRepeats (names.mergeSort fun a b => a ≤ b)

def buildNames (attached : List Value) (config : Option Json) : Option (List String) :=
  ((attached ++ customNames config).mapM Value.text?).map fun extra => sortedNames (standardNames ++ extra)

def isKept (kept : List String) : Value → Bool
  | .str s => kept.contains s
  | _ => false

def Vocabulary.current? (v : Vocabulary) : Option (List String) :=
  v.kept.filter fun kept => (v.attached.getD []).all (isKept kept)

def knownNames : Highlighting (List String) := do
  let v ← get
  match v.current? with
  | some names => return names
  | none =>
    match buildNames (v.attached.getD []) config with
    | some names =>
      set { v with kept := some names }
      return names
    | none =>
      set { v with kept := none }
      throw .wrongKind

def learn : Highlighting Unit := modify fun v => { v with kept := v.kept.map (· ++ names) }

def longestFirst : List String := names.mergeSort fun a b => b.length ≤ a.length

end KeywordDocs.Highlight
