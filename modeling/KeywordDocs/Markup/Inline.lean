import KeywordDocs.Text.Scan
import KeywordDocs.Text.Search

/-!
# Elements and Inline Markup

Recognisers for tags and for what stands between an opening and a closing tag.
-/

namespace KeywordDocs.Markup

open Text

variable (cs : List Char) (s : String)

def entities : List (Char × String) :=
  [('&', "&amp;"), ('<', "&lt;"), ('>', "&gt;"), ('"', "&quot;"), ('\'', "&#x27;")]

def codeEntities : List (Char × String) :=
  [('&', "&amp;"), ('<', "&lt;"), ('>', "&gt;"), ('"', "&quot;"), ('\'', "&#39;")]

def replaceChar (c : Char) (new : List Char) (cs : List Char) : List Char :=
  cs.flatMap fun d => if d = c then new else [d]

def replaceAll (table : List (Char × String)) (cs : List Char) : List Char :=
  table.foldl (fun cs entry => replaceChar entry.1 entry.2.toList cs) cs

def escape : String := String.ofList (replaceAll entities s.toList)

def escapeCode : String := String.ofList (replaceAll codeEntities s.toList)

def tag : Recogniser (List Char)
  | _, '<' :: cs =>
    match cs.span (· ≠ '>') with
    | (c :: body, _ :: _) => some ('<' :: c :: body ++ ['>'], body.length + 3)
    | _ => none
  | _, _ => none

def openTag? (start : List Char) (cs : List Char) : Option (List Char × Nat) := do
  let rest ← dropPrefix? start cs
  match rest.span (· ≠ '>') with
  | (attributes, _ :: rest) => some (rest, start.length + attributes.length + 1)
  | _ => none

def upTo (mark : List Char) : List Char → Option (List Char)
  | [] => none
  | c :: cs =>
    if mark.isPrefixOf (c :: cs) then some []
    else if c = '\n' then none
    else (upTo mark cs).map (c :: ·)

def enclosed (opening closing : String) (f : List Char → List Char) : Recogniser (List Char) :=
  fun _ cs => do
    let rest ← dropPrefix? opening.toList cs
    let (body, _) ← splitAtFirst closing.toList rest
    return (f body, opening.length + body.length + closing.length)

def enclosedLine (opening closing : String) (f : List Char → List Char) : Recogniser (List Char) :=
  fun _ cs => do
    let rest ← dropPrefix? opening.toList cs
    let body ← upTo closing.toList rest
    return (f body, opening.length + body.length + closing.length)

def withoutTags : List Char := replaceFinds (fun before cs => (tag before cs).map fun (_, n) => ([], n)) cs

structure Emphasis where
  mark : String
  element : String
  deriving DecidableEq

def emphases : List Emphasis :=
  [⟨"**", "strong"⟩, ⟨"__", "strong"⟩, ⟨"*", "em"⟩, ⟨"_", "em"⟩, ⟨"++", "u"⟩, ⟨"~~", "del"⟩]

def element (name : String) (body : List Char) : List Char :=
  ("<" ++ name ++ ">").toList ++ body ++ ("</" ++ name ++ ">").toList

def between (e : Emphasis) : Recogniser (List Char) := enclosedLine e.mark e.mark (element e.element)

def filledUpTo (stop : Char) (cs : List Char) : Option (List Char × List Char) :=
  match cs.span (· ≠ stop) with
  | (c :: body, _ :: rest) => some (c :: body, rest)
  | _ => none

def codeSpan : Recogniser (List Char)
  | _, '`' :: cs => do
    let (body, _) ← filledUpTo '`' cs
    return (element "code" body, body.length + 2)
  | _, _ => none

def linkParts : Option (List Char × List Char) :=
  match cs with
  | '[' :: cs => do
    let (label, rest) ← filledUpTo ']' cs
    match rest with
    | '(' :: rest =>
      let (target, _) ← filledUpTo ')' rest
      return (label, target)
    | _ => none
  | _ => none

def link : Recogniser (List Char) := fun _ cs => do
  let (label, target) ← linkParts cs
  return ("<a href=\"".toList ++ target ++ "\">".toList ++ label ++ "</a>".toList,
    label.length + target.length + 4)

def inlineRecognisers : List (Recogniser (List Char)) := emphases.map between ++ [codeSpan, link]

def inline : String :=
  String.ofList (inlineRecognisers.foldl (fun cs r => replaceFinds r cs) (escape s).toList)

end KeywordDocs.Markup
