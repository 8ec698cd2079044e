import KeywordDocs.Fault
import KeywordDocs.Number.Written
import KeywordDocs.Text.Quoted
import KeywordDocs.Text.Search

/-!
# Problems

The problems a run reports to its user instead of going on, each with an explanation of how to mend it.
-/

namespace KeywordDocs.Report

open Text

structure Failure where
  fault : Fault
  message : String

def systemError? : Fault → Option (String × String)
  | .missingFile => some ("2", "No such file or directory")
  | .accessDenied => some ("13", "Permission denied")
  | .alreadyExists => some ("17", "File exists")
  | .notDirectory => some ("20", "Not a directory")
  | .isDirectory => some ("21", "Is a directory")
  | _ => none

def faultMessage (f : Fault) : String :=
  match systemError? f with
  | some (number, name) => "[Errno " ++ number ++ "] " ++ name
  | none =>
    match f with
    | .badValue => "too many values to unpack (expected 2)"
    | .malformedSource => "invalid syntax (<unknown>, line 1)"
    | .badIndentation => "unexpected indent (<unknown>, line 1)"
    | .mixedIndentation => "inconsistent use of tabs and spaces in indentation (<unknown>, line 1)"
    | .endless => "maximum recursion depth exceeded"
    | _ => ""

def Failure.ofFault (f : Fault) : Failure := ⟨f, faultMessage f⟩

def Failure.ofFile (path : String) (f : Fault) : Failure :=
  match systemError? f with
  | some _ => ⟨f, faultMessage f ++ ": " ++ Text.quote path⟩
  | none => .ofFault f

def Failure.notPath (kind : String) : Failure :=
  ⟨.wrongKind, "expected str, bytes or os.PathLike object, not " ++ kind⟩

def Failure.notPart (kind : String) : Failure :=
  ⟨.wrongKind, "unsupported operand type(s) for /: 'PosixPath' and '" ++ kind ++ "'"⟩

inductive Output where
  | line (markup : String)
  | panel (title text : String)
  | plain (text : String)

def printed (outputs : List Output) : String :=
  String.join (outputs.filterMap fun
    | .plain text => some (text ++ "\n")
    | _ => none)

def isPanelControl (c : Char) : Bool := [7, 8, 11, 12, 13].contains c.toNat

def panelText (s : String) : String := String.ofList (s.toList.filter fun c => !isPanelControl c)

def colouredPanel (colour title text : String) : Output :=
  .panel ("[bold " ++ colour ++ "]" ++ title ++ "[/bold " ++ colour ++ "]") text

def terminalCodes : List String := ["\x1b[0m", "\x1b[1m", "\x1b[31m", "\x1b[33m", "\x1b[36m", "\x1b[90m"]

def withoutCodes (s : String) : String := terminalCodes.foldl (fun s code => Text.replace code "" s) s

def errorOutput (styled : Bool) (title text : String) : List Output :=
  if styled then [colouredPanel "red" title text]
  else [.plain ("Error: " ++ title), .plain (withoutCodes text)]

inductive Problem where
  | noConfiguration
  /-- The configuration has no list of libraries, or, if a kind is given, something else there. -/
  | noLibraries (found : Option String)
  | emptyLibraries
  | noSite
  /-- Some libraries lack fields: their numbers and what they lack. -/
  | incompleteLibraries (entries : List (String × List String))
  /-- A configuration for many libraries is used for one. -/
  | forbiddenKeys (keys : List String)
  | noInput
  | unreadable (file message : String)
  | noKeywords

def helpUrl : String := "https://github.com/deekshith-poojary98/robotframework-docgen"

def panelHelp : String := "\nFor more information and config file structure examples, visit:\n" ++ helpUrl

def plainHelp : String := "For more information, visit: " ++ helpUrl

def quotedNames (names : List String) : String := join ", " (names.map fun n => "'" ++ n ++ "'")

namespace Problem

def title : Problem → String
  | .noConfiguration => "Error"
  | .noLibraries _ => "Missing Required Config"
  | .emptyLibraries => "Empty Libraries Array"
  | .noSite => "Missing Required Config"
  | .incompleteLibraries _ => "Invalid Library Entries"
  | .forbiddenKeys _ => "Config Mismatch"
  | .noInput => "Missing Required Argument"
  | .unreadable .. => "Parse Error"
  | .noKeywords => "No Keywords Found"

def missingLibraries : Option String → String
  | none => "Missing: 'libraries' key is missing from config file.\n\n"
  | some kind => "Invalid: 'libraries' must be an array, got " ++ kind ++ ".\n\n"

def explanation : Problem → String
  | .noConfiguration =>
    "--multi-lib mode requires a config file.\n\nUsage: docgen -c config.json --multi-lib\n\n"
  | .noLibraries found =>
    "Multi-library mode requires a 'libraries' array in the config file.\n\n" ++
      missingLibraries found ++
      "Options:
  1. Use single-library mode: docgen library.py -c config.json
  2. Update config file to include a 'libraries' array:
     \"libraries\": [
       \x7b \"name\": \"Library1\", \"source\": \"lib1.py\" \x7d,
       \x7b \"name\": \"Library2\", \"source\": \"lib2.py\" \x7d
     ]

"
  | .emptyLibraries =>
    "Multi-library mode requires at least one library in the 'libraries' array.

The 'libraries' array is currently empty.

Add library entries to the 'libraries' array:
  \"libraries\": [
    \x7b
      \"name\": \"Library1\",
      \"source\": \"library1.py\"
    \x7d,
    \x7b
      \"name\": \"Library2\",
      \"source\": \"library2.py\"
    \x7d
  ]

Required fields for each library:
  - source: Path to library Python file (required)

Optional fields:
  - name: Library name (optional) - if not provided, class name will be used

"
  | .noSite =>
    "Multi-library mode requires a 'site' object in the config file.

The 'site' object contains site-wide metadata such as:
  - github_url, support_email, author, maintainer
  - license, robot_framework, python

Example config structure:
  \x7b
    \"site\": \x7b ... \x7d,
    \"libraries\": [ ... ]
  \x7d

"
  | .incompleteLibraries entries =>
    "Some library entries are missing required fields.\n\n" ++
      String.join (entries.map fun (number, missing) =>
        "Library #" ++ number ++ " missing: " ++ quotedNames missing ++ "\n") ++
      "
Required fields for each library entry:
  - source: Path to library Python file (required, string)

Optional fields:
  - name: Library name (optional, string) - if not provided, class name will be used

Example library entry:
  \x7b
    \"name\": \"MyLibrary\",  // optional
    \"source\": \"my_library.py\"
  \x7d

"
  | .forbiddenKeys keys =>
    "Config file contains multi-library mode keys but single-library mode is being used.\n\n" ++
      "Forbidden keys found: " ++ quotedNames keys ++ "\n\n" ++
      "Options:
  1. Use multi-library mode: docgen -c config.json --multi-lib
  2. Update config file for single-library mode:
     - Remove 'site' object/dict (required in multi-lib mode)
     - Remove 'libraries' array (required in multi-lib mode)

"
  | .noInput =>
    "input_file is required for single-library mode.\n\n" ++
      "Usage: docgen <library.py> -c config.json\n\n"
  | .unreadable file message => "Failed to parse file: " ++ file ++ "\n\nError: " ++ message ++ "\n\n"
  | .noKeywords =>
    "No keywords found in the library file.

Make sure to use the @keyword decorator from robot.api.deco to mark your functions as Robot Framework keywords.

Example:
    from robot.api.deco import keyword

    # Option 1: Use function name as keyword name
    @keyword
    def my_keyword(self, arg1):
        \"\"\"Documentation here.\"\"\"
        pass

    # Option 2: Specify custom keyword name
    @keyword(\"Custom Keyword Name\")
    def my_function(self, arg1):
        \"\"\"Documentation here.\"\"\"
        pass

"

def plainLines : Problem → List String
  | .noConfiguration => ["Error: --multi-lib mode requires a config file. Use -c/--config to specify it."]
  | .noLibraries found =>
    [match found with
      | none => "Error: Multi-library mode requires a 'libraries' array in the config file."
      | some kind => "Error: 'libraries' must be an array, got " ++ kind ++ ".",
      "Please use single-library mode or update your config file to include a 'libraries' array."]
  | .emptyLibraries =>
    ["Error: Multi-library mode requires at least one library in the 'libraries' array.",
      "The 'libraries' array is currently empty."]
  | .noSite =>
    ["Error: Multi-library mode requires a 'site' object in the config file.",
      "Please add a 'site' object to your config file."]
  | .incompleteLibraries entries =>
    ["Error: Some library entries are missing required fields."] ++
      entries.map (fun (number, missing) =>
        "  Library #" ++ number ++ " missing: " ++ join ", " missing) ++
      ["\nRequired fields: 'source' (string)",
        "Optional fields: 'name' (string) - if not provided, class name will be used"]
  | .forbiddenKeys keys =>
    ["Error: Config file contains multi-library mode keys but single-library mode is being used.",
      "Forbidden keys found: " ++ join ", " keys,
      "Please use --multi-lib flag or update your config file for single-library mode."]
  | .noInput => ["Error: input_file is required for single-library mode."]
  | .unreadable file message => ["Error: Failed to parse file: " ++ file, "Error: " ++ message]
  | .noKeywords =>
    ["Error: No keywords found in the library file.",
      "Make sure to use the @keyword decorator from robot.api.deco to mark your functions as Robot Framework keywords."]

def outputs (styled : Bool) (p : Problem) : List Output :=
  if styled then errorOutput true p.title (panelText (p.explanation ++ panelHelp))
  else (p.plainLines ++ [plainHelp]).map .plain

end Problem

end KeywordDocs.Report
