import KeywordDocs.Report.Configuration
import KeywordDocs.Site.SearchIndex
import KeywordDocs.Site.Settings
import KeywordDocs.Workload.Source
import KeywordDocs.Workload.Signatures

/-!
# Settings Workload

Reads configurations, decides what they ask for, names the pages of libraries, shortens texts, and
collects the cards of a library.
-/

namespace KeywordDocs.Workload

open Site

def severalLibraries : String := "\x7b\"site\": \x7b\x7d, \"libraries\": [\x7b\"source\": \"x.py\"\x7d]\x7d"

def libraryEntries : List Json :=
  [.obj [("output_file", .str "custom.html")], .obj [], .obj [("output_format", .str "markdown")],
    .obj [("source", .str "x.py")]]

def pageNames (entry : Json) : List Json :=
  [outputFilename entry "html", outputFilename entry "markdown", outputFormat entry "markdown",
    outputFormat entry "html"]

def sampleLibrary (keywords : Nat) : Highlight.Highlighting Library := do
  let description ← Markup.document none sampleDocument
  return {
    name := .str "Name"
    version := .str "1.0.0"
    scope := .str "GLOBAL"
    description := .str "# Bench"
    keywords := (List.range keywords).map fun (i : Nat) => {
      name := .str ("Keyword " ++ Number.ofInt i)
      description } }

def ownSettings : Json :=
  .obj [("description", .str "cfg desc"), ("author", .str "A"), ("maintainer", .str "M"),
    ("license", .str "MIT"), ("group", .str "G"), ("python", .str "3.11"),
    ("robot_framework", .str "5.0")]

def questions (configs : List Json) : List Json :=
  configs.map (fun c => .bool (isMultiLibrary c)) ++ configs.map fun c =>
    let keys := forbiddenKeys c
    .arr [.bool !keys.isEmpty, .arr (keys.map .str)]

def cutLength : Int := 80

def shortTexts : List String :=
  [Page.plainText (repeated 5 "<p>Hello &amp; world &lt;x&gt; &nbsp;&quot;&#39;</p>"),
    Page.plainText "",
    truncate cutLength (repeated 40 "word "),
    truncate cutLength (repeated 200 "x"),
    truncate cutLength "short",
    truncate cutLength ""]

def settings (entries : Nat) : Highlight.Highlighting Json := do
  let read (content : Option String) := (Report.readConfiguration true "config.json" content).1
  let several := read (some severalLibraries)
  let unreadable := read (some "\x7bnot json")
  let lib ← sampleLibrary 2
  let collect (url : String) (own : Option Json) : Highlight.Highlighting Json :=
    match Card.collect lib (.str "Name") url own none with
    | .ok card => return card.toJson
    | .error f => throw f
  return .arr ([several, read none, unreadable] ++ questions [several, unreadable] ++
    (cycle libraryEntries entries).flatMap pageNames ++ shortTexts.map .str ++
    [← collect "Name/index.html" (some ownSettings), ← collect "u" none])

end KeywordDocs.Workload
