import KeywordDocs.Json.Reader
import KeywordDocs.Report.Problem

/-!
# Reading a Configuration

A configuration file that does not exist counts as empty; one that is not JSON is reported and
counts as empty as well.
-/

namespace KeywordDocs.Report

def styledNote (styled : Bool) (colour word text : String) : Output :=
  if styled then .line ("[" ++ colour ++ "]" ++ word ++ ":[/" ++ colour ++ "] " ++ text)
  else .plain (word ++ ": " ++ text)

def readConfiguration (styled : Bool) (file : String) (content : Option String) :
  Json × List Output :=
  match content with
  | none => (.obj [], [])
  | some content =>
    let text := Text.uniformNewlines content
    match Json.read text with
    | .ok settings => (settings, [])
    | .error e => (.obj [], [styledNote styled "yellow" "Warning"
        ("Invalid JSON in config file " ++ file ++ ": " ++ e.message text)])

end KeywordDocs.Report
