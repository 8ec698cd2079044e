import KeywordDocs.Command.Dashboard
import KeywordDocs.Report.Configuration

/-!
# Running the Program

A run reads the settings, checks them, and documents one library or many.
-/

namespace KeywordDocs.Command

open Files Report Discovery Text

variable (c : Conditions) (o : Options) (config : Json) (done : List Documented) (input : String)

def unnamedOutput : String :=
  (Path.ofText input).stem ++ "." ++ (if o.format = "markdown" then o.format else "html")

def outputPath : String :=
  let file := (o.output.filter (· ≠ "")).getD (unnamedOutput o input)
  match o.folder.filter (· ≠ "") with
  | some folder => ((Path.ofText folder).append (Path.ofText file)).toText
  | none => file

def itemCount : Json → Except Fault Nat
  | .arr items => .ok items.length
  | .obj members => .ok members.length
  | .str s => .ok s.length
  | _ => .error .wrongKind

def customCount : Except Fault Nat :=
  match config.field? "custom_keywords" with
  | some names => itemCount names
  | none => .ok 0

def sourceName (disk : Disk) (config : Json) (input : String) : String :=
  let found := do
    let file ← SourceFile.onDisk disk input
    (c.find config file).1
  match found with
  | .ok (_, lib) =>
    match lib.name with
    | .str name => name
    | _ => (Path.ofText input).stem
  | .error _ => (Path.ofText input).stem

def singleSummary (name : String) (done : PageDone) (custom : Nat) : String :=
  "✓ Parsed " ++ Number.ofInt done.keywords ++ " keywords from " ++ name ++
    (if custom = 0 then "" else "\n✓ Added " ++ Number.ofInt custom ++ " custom keywords") ++
    "\n✓ Generated " ++ upper o.format ++ " documentation\n  → " ++ done.path

def runSingle : Run Nat := do
  if let some folder := o.folder.filter (· ≠ "") then ensureDirectory (Path.ofText folder)
  match ← makePage c { input, output := some (outputPath o input), format := .str o.format, config } with
  | none => return 1
  | some done =>
    if c.styled then
      let custom ← require .ofFault (customCount config)
      let name := sourceName (c.after (.str input)) (← get).disk config input
      say (donePanel "Documentation Generated" (singleSummary o name done custom))
    else
      say (.plain ("✓ Parsed " ++ Number.ofInt done.keywords ++ " keywords"))
      say (.plain ("✓ Documentation generated: " ++ done.path))
    return 0

inductive Verdict where
  | accepted
  | rejected (p : Problem)

def Options.wantsMany : Bool := o.multi || o.dashboard

def hasKey (key : String) : Json → Except Fault Bool
  | .obj members => .ok (Json.member? key members).isSome
  | .arr items => .ok (items.any fun v => v.text? = some key)
  | .str s => .ok (Text.contains key s)
  | _ => .error .wrongKind

def requireField (key : String) : Json → Except Fault (Option Json)
  | .obj members => .ok (Json.member? key members)
  | _ => .error .missingAttribute

def checkMany : Except Fault Verdict := do
  match ← requireField "libraries" config with
  | some (.arr []) => return .rejected .emptyLibraries
  | some (.arr _) =>
    match config.field? "site" with
    | some (.obj _) => return .accepted
    | _ => return .rejected .noSite
  | none | some .null => return .rejected (.noLibraries none)
  | some other => return .rejected (.noLibraries (some (Value.ofJson other).kindName))

def checkKeys : Except Fault Verdict := do
  let keys ← ["site", "libraries"].filterM fun key => hasKey key config
  return if keys.isEmpty then .accepted else .rejected (.forbiddenKeys keys)

def lacksSource (entry : Json) : Except Fault Bool := do
  if !(← hasKey "source" entry) then return true
  match ← requireField "source" entry with
  | some v => return !v.isTruthy
  | none => return true

def incompleteEntries (entries : List Json) : Except Fault (List Nat) := do
  let lacking ← entries.mapM lacksSource
  return ((List.range lacking.length).zip lacking).filterMap fun (i, lacks) =>
    if lacks then some (i + 1) else none

def loadSettings (file : String) : Run Json := do
  match (← get).disk.readText file with
  | .ok text => settle (readConfiguration c.styled file (some text))
  | .error .missingFile => return .obj []
  | .error f =>
    say (styledNote c.styled "red" "Error"
      ("Could not load config file " ++ file ++ ": " ++ (Failure.ofFile file f).message))
    return .obj []
where
  settle (r : Json × List Output) : Run Json := do
    r.2.forM say
    return r.1

def note (text plain : String) : Run Unit :=
  sayEither c (.line ("[yellow]Note:[/yellow] " ++ text)) ["Note: " ++ plain]

inductive Task where
  | nothing
  | one (config : Json) (input : String)
  | many (config : Json) (entries : List Json)

def Options.base : Path := Path.ofText ((o.folder.filter (· ≠ "")).getD "output")

def listedEntries : List Json :=
  match config.field? "libraries" with
  | some (.arr entries) => entries
  | _ => []

def planMany : Run Task := do
  match ← require .ofFault (checkMany config) with
  | .rejected p =>
    report c p
    return .nothing
  | .accepted =>
    if c.styled && (o.output.filter (· ≠ "")).isSome then
      say (.line ("[yellow]Note:[/yellow] -o/--output flag is ignored in multi-library mode. " ++
        "Each library writes to its own directory."))
    ensureDirectory o.base
    let entries := listedEntries config
    let incomplete ← require .ofFault (incompleteEntries entries)
    if incomplete.isEmpty then return .many config entries
    report c (.incompleteLibraries (incomplete.map fun (n : Nat) => (Number.ofInt n, ["source"])))
    return .nothing

def noteParallel : Run Unit :=
  if o.parallel then
    note c ("--parallel flag is only effective in multi-library mode. " ++
      "Ignoring --parallel for single-library mode.")
      ("--parallel flag is only effective in multi-library mode. " ++
      "Ignoring for single-library mode.")
  else return ()

def planInput : Run Task :=
  match o.input.filter (· ≠ "") with
  | none => do
    report c .noInput
    return .nothing
  | some input => return .one config input

def planOne : Run Task := do
  match ← require .ofFault (checkKeys config) with
  | .rejected p =>
    report c p
    return .nothing
  | .accepted =>
    noteParallel c o
    planInput c o config

def plan : Run Task := do
  match o.config.filter (· ≠ "") with
  | none =>
    if o.multi then
      report c .noConfiguration
      return .nothing
    planWith (.obj [])
  | some file => planWith (← loadSettings c file)
where
  planWith (config : Json) : Run Task :=
    if o.wantsMany then planMany c o config else planOne c o config

def documentEntries (entries : List Json) : Run (List Documented) :=
  if o.parallel && 1 < entries.length then documentParallel c o config o.base entries
  else documentAll c o config o.base entries

def hasDashboard : Bool := o.dashboard && !(cardsOf done).isEmpty

def exitCode : Nat :=
  if done.isEmpty then 1 else 0

def presentDashboard : Run Unit :=
  if hasDashboard o done then do
    makeDashboard c o.base config done
    tellDashboard c o.base done
  else return ()

def closeMany : Run Nat :=
  if o.serve then
    if hasDashboard o done then do
      serveSite c o
      return exitCode done
    else do
      tellError c "--serve requires --dashboard flag. Dashboard must be generated first."
      return 1
  else if done.isEmpty then return exitCode done
  else do
    tellLibraries c o.base done
    return exitCode done

def concludeMany : Run Nat := do
  presentDashboard c o config done
  closeMany c o done

def perform : Task → Run Nat
  | .nothing => return 1
  | .one config input => runSingle c o config input
  | .many config entries => do concludeMany c o config (← documentEntries c o config entries)

def run : Run Nat := do
  perform c o (← plan c o)

inductive Ending where
  | exit (code : Nat)
  | refused (r : Refusal)
  | failed (e : Failure)

def runWords (words : List String) (disk : Disk) : Ending × Session :=
  match readOptions words with
  | .error r => (.refused r, { disk })
  | .ok o =>
    match StateT.run (run c o).run { disk } with
    | (.ok code, s) => (.exit code, s)
    | (.error e, s) => (.failed e, s)

def usageError (r : Refusal) : String := "docgen: error: " ++ r.message

end KeywordDocs.Command
