import KeywordDocs.Markup.Document
import KeywordDocs.Text.Indent

/-!
# Documentation as Markdown

The other reading of a documentation text: fenced code is cut out and rendered, and the prose between is
handed to a Markdown processor.
-/

namespace KeywordDocs.Markup

open Text Highlight

variable (processor : String → String) (config : Option Json) (text : String)

def identifier : Recogniser (List Char) := fun before cs =>
  let name := cs.takeWhile isAsciiWord
  if name.contains '_' && !isWordAt before && !isWordAt (cs.drop name.length).head? then
    some ('`' :: name ++ ['`'], name.length)
  else none

def mapOutside (f : List Char → List Char) : Bool → List (List Char) → List (List Char)
  | _, [] => []
  | outside, part :: rest => (if outside then f part else part) :: mapOutside f (!outside) rest

def joinBackticks : List (List Char) → List Char
  | [] => []
  | [part] => part
  | part :: rest => part ++ '`' :: joinBackticks rest

def protectChars (cs : List Char) : List Char :=
  joinBackticks (mapOutside (replaceFinds identifier) true (splitAtChar '`' cs))

def protect (s : String) : String := String.ofList (protectChars s.toList)

def upToStars (stop : Char → Bool) : List Char → Option (List Char)
  | [] => none
  | c :: cs =>
    if stop c then none
    else match cs with
      | '*' :: '*' :: '*' :: _ => (upToStars stop cs).map (c :: ·)
      | '*' :: '*' :: _ => some [c]
      | _ => (upToStars stop cs).map (c :: ·)

def straySpan (stop : Char → Bool) : Recogniser (List Char)
  | _, '`' :: '`' :: cs => do
    let body ← upToStars stop cs
    return ("``".toList ++ body ++ "``".toList, body.length + 4)
  | _, _ => none

def endsStraySpan (c : Char) : Bool := c == '`' || c == '\n' || c == '*'

def endsLooseSpan (c : Char) : Bool := c == '`' || c == '\n'

def apartImage : Recogniser (List Char)
  | _, '!' :: cs =>
    match cs.span isBlank with
    | (g :: gap, '[' :: _) => some (['!', '['], (g :: gap).length + 2)
    | _ => none
  | _, _ => none

def image : Recogniser (List Char)
  | _, '!' :: cs => do
    let (label, target) ← linkParts cs
    return ("<img alt=\"".toList ++ replaceAll entities label ++ "\" src=\"".toList ++ target ++
      "\" />".toList, label.length + target.length + 5)
  | _, _ => none

def prose : String :=
  let cs := (trim (dedent text)).toList
  if cs.isEmpty then ""
  else
    let cs := [straySpan endsLooseSpan, apartImage, image].foldl (fun cs r => replaceFinds r cs) cs
    processor (String.ofList cs)

def fencedCode : Recogniser (List Char × List Char) := fun _ cs => do
  let rest ← dropPrefix? "```".toList cs
  match rest.span fun c => c ≠ '\n' && c ≠ '`' with
  | (language, '\n' :: rest) =>
    let (code, _) ← splitAtFirst "```".toList rest
    return ((language, code), language.length + code.length + 7)
  | _ => none

def prepareProse (cs : List Char) : String :=
  prose processor (String.ofList (protectChars (replaceFinds (straySpan endsStraySpan) cs)))

def markdownPiece : List Char ⊕ (List Char × List Char) → Highlighting (List String)
  | .inl text =>
    let markup := prepareProse processor text
    return if markup.isEmpty then [] else [markup]
  | .inr (language, code) => do
    let language := if language.isEmpty then "text" else trim (String.ofList language)
    let body := trimRightOf (· == '\n') (dedent (String.ofList code))
    if body.isEmpty then return []
    return [← codeBlock config language body]

def markdownDocument : Highlighting String := do
  let content := trimOf (· == '\n') (dedent text)
  if content.isEmpty then return ""
  let parts ← (pieces fencedCode content.toList).mapM (markdownPiece processor config)
  return unlines parts.flatten

def docstring : Highlighting String := do
  if text.isEmpty then return ""
  let _ ← markdownDocument id config text
  document config text

end KeywordDocs.Markup
