import KeywordDocs.Command.Libraries
import KeywordDocs.Site.Dashboard
import KeywordDocs.Site.Navigation
import KeywordDocs.Site.Script
import KeywordDocs.Site.StyleSheet

/-!
# Making a Dashboard

A dashboard is a page that lists the documented libraries, with the files it needs beside it.
-/

namespace KeywordDocs.Command

open Files Report Site

variable (c : Conditions) (base : Path) (done : List Documented)

def withDefault (key value : String) (j : Json) : Json :=
  if (j.field? key).isSome then j else Json.setField key (.str value) j

def siteSettings (config : Json) : Json :=
  let site := (config.field? "site").getD (.obj [])
  withDefault "description" "Documentation for Robot Framework libraries"
    (withDefault "name" "Robot Framework Libraries" site)

def writeDashboard (cards : List Card) (site : Json) : Run Unit := do
  let assets := base.append (Path.ofText "assets")
  let within (name : String) := (assets.append (Path.ofText name)).toText
  ensureDirectory assets
  let index ← require .ofFault (searchIndex cards)
  writeText (within "search-index.json") (index.indented "  " "\n")
  writeText (within "style.css") styleSheet
  writeText (within "app.js") script
  writeText (within "search.js") searchScript
  let page ← require .ofFault (dashboardHtml cards site c.now)
  writeText (base.append (Path.ofText "index.html")).toText page

def linkPage (path : String) : Run Unit := do
  let page ← require (.ofFile path) ((← get).disk.readText path)
  let linked ← require .ofFault (addNavigation page "../index.html")
  writeText path linked

def linkPages : Run Unit := (done.filter fun d => isHtml d.format).forM fun d => linkPage d.path

def makeDashboard (config : Json) (done : List Documented) : Run Unit := do
  sayEither c (.line "[cyan]Generating dashboard...[/cyan]") ["Generating dashboard..."]
  writeDashboard c base (cardsOf done) (siteSettings config)
  linkPages done

def documentedLine (d : Documented) : String :=
  "  • " ++ d.name ++ ": " ++ Number.ofInt d.keywords ++ " keywords → " ++ d.path

def tellDashboard : Run Unit :=
  let url := (base.append (Path.ofText "index.html")).toText
  let facts := ["✓ Dashboard generated successfully",
    "✓ Libraries documented: " ++ Number.ofInt done.length,
    "✓ Total keywords: " ++ Number.ofInt (totalKeywords done),
    "✓ Dashboard URL: " ++ url]
  let lines := facts ++ ["", "Documented libraries:"] ++ done.map documentedLine
  if c.styled then
    say (donePanel "Dashboard Generated Successfully" (String.join (lines.map fun l => l ++ "\n")))
  else lines.forM fun l => say (.plain l)

def libraryFacts : List String :=
  ["✓ Generated documentation for " ++ Number.ofInt done.length ++ " libraries",
    "✓ Total keywords: " ++ Number.ofInt (totalKeywords done),
    "✓ Output directory: " ++ base.toText]

def librarySummary : List Output :=
  if c.styled then
    [donePanel "Multi-Library Documentation Generated"
      (String.join ((libraryFacts base done ++ [""] ++ done.map documentedLine).map
        fun l => l ++ "\n"))]
  else (libraryFacts base done ++ done.map documentedLine).map .plain

def tellLibraries : Run Unit := (librarySummary c base done).forM say

def tellServing (o : Options) : Run Unit :=
  let url := "Server URL: http://" ++ o.host ++ ":" ++ Number.ofInt o.port
  sayEither c
    (donePanel "Dashboard Server Running" ("Dashboard server started successfully\n\n" ++ url ++
        "\n\nPress Ctrl+C to stop the server\n"))
    ["Dashboard server started successfully", url, "Press Ctrl+C to stop the server"]

def tellError (text : String) : Run Unit :=
  sayEither c (.line ("[red]Error:[/red] " ++ text)) ["Error: " ++ text]

def serveSite (o : Options) : Run Unit :=
  match c.server with
  | .ends => tellServing c o
  | .interrupted => do
    tellServing c o
    sayEither c (.line "\n[yellow]Server stopped by user[/yellow]") ["\nServer stopped by user"]
  | .fails message =>
    if Text.contains "Address already in use" message then
      tellError c ("Port " ++ Number.ofInt o.port ++
        " is already in use. Please use a different port with --port")
    else tellError c ("Failed to start server: " ++ message)

end KeywordDocs.Command
