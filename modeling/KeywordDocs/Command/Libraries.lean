import KeywordDocs.Command.Options
import KeywordDocs.Command.Page

/-!
# Many Libraries

Documents the libraries of a list one after another, each in a directory of its own.
-/

namespace KeywordDocs.Command

open Files Report Site

variable (c : Conditions) (o : Options) (config : Json) (base : Path) (entry : Json)

structure Documented where
  name : String
  path : String
  keywords : Nat
  format : Json
  card : Option Card := none

def totalKeywords (done : List Documented) : Nat :=
  done.foldl (fun n d => n + d.keywords) 0

def cardsOf (done : List Documented) : List Card :=
  done.filterMap Documented.card

def settingKind (v : Json) : String := (Value.ofJson v).kindName

def pathPart : Json → Except Failure String
  | .str s => .ok s
  | other => .error (.notPart (settingKind other))

structure Target where
  source : String
  name : String
  format : Json
  file : Json

def targetOf : Except Failure Target := do
  let source ← match entry.field? "source" with
    | some (.str s) => pure s
    | some other => throw (.notPath (settingKind other))
    | none => throw (.ofFault .missingKey)
  let name ← pathPart ((entry.field? "name").getD (.str (Path.ofText source).stem))
  let format := outputFormat entry o.format
  return { source, name, format, file := outputFilename entry (format.text?.getD "") }

def Target.folder (t : Target) (base : Path) : Path := base.append (Path.ofText t.name)

def Target.order (t : Target) (o : Options) (config : Json) (base : Path) (entry : Json)
  (file : String) : PageOrder where
  input := t.source
  output := some ((t.folder base).append (Path.ofText file)).toText
  format := t.format
  config := config
  own := some entry
  wantsCard := o.dashboard

def recordPage (t : Target) (order : PageOrder) : Run (String × Option Documented) := do
  let page ← makePage c order
  return (t.name, page.map fun p =>
    { name := t.name, path := p.path, keywords := p.keywords, format := t.format, card := p.card })

def documentLibrary : Run (String × Option Documented) := do
  let t ← orFail (targetOf o entry)
  ensureDirectory (t.folder base)
  let file ← orFail (pathPart t.file)
  recordPage c t (t.order o config base entry file)

def failureText (name : String) : String := "Failed to generate documentation for " ++ name

def failurePanel (text : String) : Output := colouredPanel "red" "Generation Failed" (panelText text)

def tellMissing : String × Option Documented → Run Unit
  | (_, some _) => return ()
  | (name, none) => sayEither c (failurePanel (failureText name)) [failureText name]

def documentAll (c : Conditions) (o : Options) (config : Json) (base : Path) :
  List Json → Run (List Documented)
  | [] => return []
  | entry :: rest => do
    let result ← documentLibrary c o config base entry
    tellMissing c result
    return result.2.toList ++ (← documentAll (c.after entry) o config base rest)

abbrev Outcome := Documented ⊕ (Json × String)

def madeOutcome : String × Option Documented → Outcome
  | (_, some made) => .inl made
  | (name, none) => .inr (.str name, "Failed to generate documentation")

def failedOutcome (e : Failure) : Outcome :=
  .inr ((entry.field? "name" <|> entry.field? "source").getD (.str "Unknown"), "Error: " ++ e.message)

def outcomeOf : Run Outcome :=
  tryCatch (do return madeOutcome (← documentLibrary c o config base entry)) fun e =>
    return failedOutcome entry e

def outcomes (c : Conditions) (o : Options) (config : Json) (base : Path) :
  List Json → Run (List Outcome)
  | [] => return []
  | entry :: rest => do
    let first ← outcomeOf c o config base entry
    return first :: (← outcomes (c.after entry) o config base rest)

def progressText (i n : Nat) : String := "[" ++ Number.ofInt i ++ "/" ++ Number.ofInt n ++ "]"

def madeText (progress : String) (made : Documented) : String :=
  progress ++ " " ++ made.name ++ ": " ++ Number.ofInt made.keywords ++ " keywords"

/-- The markup that tells of a library: the name of the library is part of it as it is. -/
def madeMarkup (progress : String) (made : Documented) : String :=
  "[green]✓[/green] " ++ madeText progress made

def tellOutcome (progress : String) : Outcome → Run Unit
  | .inl made =>
    if c.styled then
      match c.refuses (madeMarkup progress made) with
      | some e => throw e
      | none => say (.line (madeMarkup progress made))
    else say (.plain ("✓ " ++ madeText progress made))
  | .inr (name, reason) =>
    if c.styled then
      match name with
      | .str name => say (failurePanel (failureText name ++ ": " ++ reason))
      | _ => throw (.ofFault .wrongKind)
    else do
      say (.plain ("✗ " ++ progress ++ " Failed: " ++ name.display))
      say (.plain ("  Error: " ++ reason))

def tellOutcomes (outcomes : List Outcome) : Run Unit :=
  ((List.range outcomes.length).zip outcomes).forM fun numbered =>
    tellOutcome c (progressText (numbered.1 + 1) outcomes.length) numbered.2

def workerCount (libraries : Nat) (processors : Nat) : Int :=
  match o.workers.filter (· ≠ 0) with
  | some n => max 1 (min n libraries)
  | none => min 32 (min (libraries : Int) (processors * 2))

def documentParallel (entries : List Json) : Run (List Documented) := do
  let start := "Processing " ++ Number.ofInt entries.length ++ " libraries in parallel with " ++
    Number.ofInt (workerCount o entries.length c.processors) ++ " workers..."
  sayEither c (.line ("[cyan]" ++ start ++ "[/cyan]")) [start]
  let found ← outcomes c o config base entries
  tellOutcomes c found
  return found.filterMap Sum.getLeft?

end KeywordDocs.Command
