import KeywordDocs.Calendar.Span
import KeywordDocs.Command.Run
import Std.Time.DateTime.Timestamp

/-!
# The Command Line

Runs the program on the working directory: its files are read, the run is computed, and the files
that the run made or changed are written.
-/

namespace KeywordDocs.CommandLine

open Command Files

/-- The files below the given directories, by their paths; what is no text is left out. -/
partial def filesBelow (found : List (String × String)) :
    List IO.FS.DirEntry → IO (List (String × String))
  | [] => return found
  | e :: rest => do
    if e.fileName.startsWith "." then filesBelow found rest
    else if ← e.path.isDir then filesBelow found ((← e.path.readDir).toList ++ rest)
    else
      match String.fromUTF8? (← IO.FS.readBinFile e.path) with
      | some text => filesBelow ((e.path.toString, text) :: found) rest
      | none => filesBelow found rest

def clock : IO String := do
  let seconds := (← Std.Time.Timestamp.now).toSecondsSinceUnixEpoch.val
  match Moment.ofTimestamp (.int seconds) with
  | .ok t => return t.iso " "
  | .error _ => return ""

def writeChanges (home : String) (before after : Disk) : IO Unit := do
  let old := before.files
  for (path, content) in after.files do
    if (old.lookup path).map (·.data) != some content.data then
      let parent := (Path.ofText (home ++ "/" ++ path)).parent.toText
      IO.FS.createDirAll parent
      IO.FS.writeBinFile (home ++ "/" ++ path) content

def runProgram (words : List String) : IO UInt32 := do
  let folder ← IO.currentDir
  let home := folder.toString
  let files ← filesBelow [] (← folder.readDir).toList
  let disk := Disk.ofFiles (Path.ofText home).parts files.reverse
  let conditions : Conditions := {
    styled := false
    now := ← clock
    server := .fails "serving is not supported" }
  let (ending, session) := runWords conditions words disk
  writeChanges home disk session.disk
  IO.print (Report.printed session.outputs)
  match ending with
  | .exit code => return UInt32.ofNat code
  | .refused .help => return 0
  | .refused r =>
    IO.eprintln (usageError r)
    return 2
  | .failed e =>
    IO.eprintln e.message
    return 1

end KeywordDocs.CommandLine

def main (words : List String) : IO UInt32 := KeywordDocs.CommandLine.runProgram words
