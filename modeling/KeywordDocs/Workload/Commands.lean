import KeywordDocs.Command.Run
import KeywordDocs.Workload.Rendering

/-!
# Command Workload

Runs of the whole program over generated sources.
-/

namespace KeywordDocs.Workload

open Command Files

variable (c : Conditions) (files : List (String × String))

def exitCode (words : List String) : Nat :=
  match (runWords c words (.ofFiles ["work"] files)).1 with
  | .exit code => code
  | .refused .help => 0
  | .refused _ => 2
  | .failed _ => 1

def exitCodes (runs : List (List String)) : Json := .arr (runs.map fun words => .int (exitCode c files words))

def pageRuns : List (List String) := [ ["lib.py", "-o", "page.html"],
  ["lib.py", "-f", "markdown", "-o", "page.md"],
  ["lib.py", "-o", "page.html", "-c", "page.json"],
  ["lib.py", "-f", "markdown", "-o", "page.md", "-c", "page.json"],
  ["lib.py", "-o", "page.html", "--parallel"],
  ["lib.py"]]

def problemRuns : List (List String) := [
  ["--multi-lib"],
  ["--multi-lib", "-c", "page.json"],
  ["--multi-lib", "-c", "empty.json"],
  ["--multi-lib", "-c", "unnamed.json"],
  ["--multi-lib", "-c", "incomplete.json"],
  ["lib.py", "-c", "site.json"],
  [],
  ["missing.py"],
  ["none.py"]]

def siteSettings (libraries : List Json) : String :=
  (Json.obj [("site", .obj [("name", .str "Site")]), ("libraries", .arr libraries)]).compact

def pageSettingsText : String := (Json.obj [("github_url", .str "https://example.com/repo")]).compact

def pageFiles (keywords : Nat) : List (String × String) := [
  ("lib.py", Recipe.source { keywords, isRich := false }),
  ("none.py", Recipe.source { keywords := 0, isRich := false }),
  ("page.json", pageSettingsText),
  ("empty.json", siteSettings []),
  ("unnamed.json", (Json.obj [("libraries", .arr [.obj [("source", .str "lib.py")]])]).compact),
  ("incomplete.json", siteSettings [.obj [("name", .str "Lib")]]),
  ("site.json", siteSettings [.obj [("source", .str "lib.py")]])]

def singleRuns (keywords : Nat) : Json := exitCodes c (pageFiles keywords) (pageRuns ++ problemRuns)

def libraryFile (i : Nat) : String := "lib" ++ Number.ofInt i ++ ".py"

def siteRuns (libraries : Nat) : Json :=
  let numbers := List.range libraries
  let entries := numbers.map fun (i : Nat) => Json.obj [
    ("name", .str ("Lib" ++ Number.ofInt i)), ("source", .str (libraryFile i))]
  let files := ("site.json", siteSettings entries) ::
    numbers.map fun i => (libraryFile i, Recipe.source { keywords := 4, isRich := false })
  exitCodes c files [
    ["--dashboard", "-c", "site.json", "-d", "site"],
    ["--multi-lib", "--dashboard", "--parallel", "-c", "site.json", "-d", "site"],
    ["--multi-lib", "-c", "site.json", "-d", "site"],
    ["--multi-lib"]]

def problemReports (reports : Nat) : Highlight.Highlighting Json := do
  let length ← renderedLength reports
  return .arr (List.replicate reports (.str Report.helpUrl) ++ [.int length])

end KeywordDocs.Workload
