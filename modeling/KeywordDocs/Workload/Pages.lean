import KeywordDocs.Site.Dashboard
import KeywordDocs.Site.Filter
import KeywordDocs.Site.Navigation
import KeywordDocs.Site.Script
import KeywordDocs.Site.StyleSheet
import KeywordDocs.Workload.Cards
import KeywordDocs.Workload.Settings

/-!
# Page Workload

Generates pages of the sample library, listings of test code, and the files of a site.
-/

namespace KeywordDocs.Workload

open Highlight Site

def lifted {α : Type} : Except Fault α → Highlighting α
  | .ok a => return a
  | .error f => throw f

def htmlPage (now : String) (keywords : Nat) : Highlighting Json := do
  let lib ← sampleLibrary keywords
  return .int (← Page.html Page.pageTemplate (.obj []) lib now false).length

def markdownPage (keywords : Nat) : Highlighting Json := do
  return .int (← lifted (Page.markdown (.obj []) (← sampleLibrary keywords))).length

def testCode : List String :=
  ((Text.lines sampleDocument).dropWhile (· ≠ "```robot")).tail.takeWhile (· ≠ "```")

def testListing (lines : Nat) : Highlighting Json := do
  return .int (← highlightCode none (Text.unlines (cycle testCode lines))).length

def siteKeywords : Nat := 8

def barePage : String := "<html><head></head><body></body></html>"

def siteFiles (now : String) (libraries : Nat) : Except Fault Json := do
  let cards := cards libraries siteKeywords
  let entries := match ← searchIndex cards with
    | .arr items => items.length
    | _ => 0
  let dashboard ← dashboardHtml cards (.obj []) now
  let filter ← filterHtml "Author" "author" ((List.range 3).map (numbered "Author"))
  let page ← addNavigation barePage "../index.html"
  return .arr ([entries, dashboard.length, filter.length, page.length, styleSheet.length,
    script.length, searchScript.length].map fun (n : Nat) => .int n)

end KeywordDocs.Workload
