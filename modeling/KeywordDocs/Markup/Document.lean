import KeywordDocs.Highlight.Line
import KeywordDocs.Markup.Block

/-!
# Documentation as Markup

The fragments of a documentation text written out.
-/

namespace KeywordDocs.Markup

open Text Highlight

variable (config : Option Json) (line : String)

def isRuling (c : Char) : Bool := isBlank c || c == '-' || c == '|'

def dropFinalNewline (cs : List Char) : List Char :=
  if cs.getLast? = some '\n' then cs.dropLast else cs

def isSeparator : Bool :=
  let cs := line.toList
  let closed (l : List Char) := l.getLast? == some '|' && 3 ≤ l.length
  cs.head? == some '|' && cs.all isRuling && (closed cs || closed (dropFinalNewline cs))

def cells : List String :=
  ((splitAtChar '|' line.toList).tail.dropLast).map fun cell => String.ofList (trimChars cell)

def row (tag : String) (line : String) : List String :=
  (cells line).map fun cell => "<" ++ tag ++ ">" ++ inline cell ++ "</" ++ tag ++ ">"

def tableLine (index : Nat) (line : String) : List String :=
  if isSeparator line then []
  else if index = 0 then ["<thead><tr>"] ++ row "th" line ++ ["</tr></thead><tbody>"]
  else ["<tr>"] ++ row "td" line ++ ["</tr>"]

def table (lines : List String) : String :=
  if lines.isEmpty then ""
  else unlines (["<table class=\"doc-table\">"] ++
    lines.zipIdx.flatMap (fun (line, index) => tableLine index line) ++ ["</tbody></table>"])

def codeOpening (language : String) : String :=
  "<div class=\"code-block\"><pre class=\"language-" ++ language ++ "\">"

def codeClosing : String := "</pre></div>"

def Fragment.render : Fragment → Highlighting String
  | .listOpen => return "<ul>"
  | .listClose => return "</ul>"
  | .codeOpen language => return codeOpening language
  | .codeClose => return codeClosing
  | .code language lines => listing config language (unlines lines)
  | .heading level text =>
    let tag := "h" ++ Number.ofInt level
    return "<" ++ tag ++ ">" ++ inline text ++ "</" ++ tag ++ ">"
  | .item text => return "<li>" ++ inline text ++ "</li>"
  | .paragraph text => return "<p>" ++ inline text ++ "</p>"
  | .rule => return "<hr>"
  | .gap => return "<br>"
  | .table lines => return Markup.table lines

def documentLines (content : String) : Highlighting (List String) :=
  (fragments content).mapM (Fragment.render config)

def document (content : String) : Highlighting String := do
  return unlines (← documentLines config content)

def codeBlock (language code : String) : Highlighting String := do
  let name := trim language
  let language := if name.isEmpty then "text" else name
  let body ← listing config (lower language) (trimRight code)
  return codeOpening language ++ trimRight body ++ codeClosing

end KeywordDocs.Markup
