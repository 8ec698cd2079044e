import KeywordDocs.Markup.Inline
import KeywordDocs.Pattern.Find

/-!
# The Way Back to the Dashboard

A link to the dashboard is put into every library page: at the start of the navigation of a page with a
header, or as a bar of its own at the start of the body.
-/

namespace KeywordDocs.Site

open Text Markup

variable (cs : List Char) (url : String)

def navigationLink : String := "<a href=\"" ++ url ++ "\">← Back to Dashboard</a>"

def navigationBar : String :=
  "<div class=\"dashboard-nav-container\" style=\"background: rgba(15,23,42,0.95); padding: 0.75rem 2rem; border-bottom: 1px solid var(--border);\">
    <a href=\"" ++ url ++ "\" style=\"color: var(--accent); text-decoration: none; font-weight: 500;\">← Back to Dashboard</a>
</div>"

def splitAround (here? : List Char → Option Nat) :
  List Char → Option (List Char × List Char × List Char)
  | [] => none
  | c :: cs =>
    match here? (c :: cs) with
    | some n => some ([], (c :: cs).take n, (c :: cs).drop n)
    | none => (splitAround here? cs).map fun (front, rest) => (c :: front, rest)

def navOpening : Option Nat := do
  let (rest, n) ← openTag? "<nav".toList cs
  if containsChars "</nav>".toList rest then return n else none

def bodyOpening : Option Nat := (openTag? "<body".toList cs).map (·.2)

def insertAfter (here? : List Char → Option Nat) (new : List Char) (cs : List Char) : List Char :=
  match splitAround here? cs with
  | some (front, found, rest) => front ++ found ++ new ++ rest
  | none => cs

def addNavigation (page url : String) : Except Fault String := do
  let cs := page.toList
  if contains "<header" page then
    return String.ofList (insertAfter navOpening (navigationLink url).toList cs)
  else if contains "<body>" page then
    let here (cs : List Char) := if "<body>".toList.isPrefixOf cs then some 6 else none
    return String.ofList (insertAfter here (navigationBar url).toList cs)
  else if contains "<body " page then
    let bar ← Pattern.readTemplate 1 (navigationBar url)
    match splitAround bodyOpening cs with
    | some (front, tag, rest) => return String.ofList (front ++ tag ++ Pattern.expand [tag, tag] bar ++ rest)
    | none => return page
  else return page

end KeywordDocs.Site
