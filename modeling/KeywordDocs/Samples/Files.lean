import KeywordDocs.Files.Encoding
import KeywordDocs.Files.Transfer
import KeywordDocs.Json.Reader
import KeywordDocs.Samples.Basic
import KeywordDocs.Samples.Kinds
import KeywordDocs.Value.Serial

/-!
# A Library for Files

Reading, writing, copying, moving, listing and deleting files.
-/

namespace KeywordDocs.Samples

open Files Text

variable (disk : Disk) (path v : Value)

def pathArgument : Except Fault Path := do
  return Path.ofText (← textArgument v)

def pathText : Except Fault String := do
  return (← pathArgument v).toText

def encodingName : Value → Except Fault String
  | .none => .ok "utf-8"
  | v => textArgument v

def encodingNamed (name : String) : Except Fault Encoding :=
  match Encoding.named? name with
  | some e => .ok e
  | none => .error .unknownEncoding

def readFile (path encoding : Value) : Except Fault String := do
  let path ← textArgument path
  let name ← encodingName encoding
  let content ← disk.read path
  return uniformNewlines (← (← encodingNamed name).decode content.toList)

def onDisk (f : Disk → Except Fault Disk) : Playing Unit := do
  let disk ← outcome (f (← get).disk)
  modify fun scene => { scene with disk }

def makeParent (path : Path) : Playing Unit := onDisk fun disk => disk.ensureDirectory path.parent

def writeFile (path content encoding : Value) : Playing Value := do
  makeParent (← outcome (pathArgument path))
  let path ← outcome (textArgument path)
  let name ← outcome (encodingName encoding)
  onDisk fun disk => disk.write path ByteArray.empty
  let bytes ← outcome do (← encodingNamed name).encode (← textArgument content)
  onDisk fun disk => disk.write path ⟨bytes.toArray⟩
  return .none

def indentStep : Value → Except Fault (Option String)
  | .none => .ok none
  | .str s => .ok (some s)
  | v => do return some (String.ofList (List.replicate (← intArgument v).toNat ' '))

def writeDocument (path v indent : Value) : Playing Value := do
  makeParent (← outcome (pathArgument path))
  let path ← outcome (textArgument path)
  onDisk fun disk => disk.write path ByteArray.empty
  let step ← outcome (indentStep indent)
  let (text, fault) := Value.written (v.pieces (step.getD "") (step.map fun _ => "\n"))
  onDisk fun disk => disk.writeText path text
  match fault with
  | some f => throw f
  | none => return .none

def readDocument : Except Fault Value := do
  match Json.read (← readFile disk path (.str "utf-8")) with
  | .ok j => return .ofJson j
  | .error _ => .error .malformedJson

def listFiles (directory pattern : Value) : Except Fault Value := do
  let start ← pathArgument directory
  let found ← if pattern.isTruthy then disk.select start (← textArgument pattern) else do
    let names ← disk.namesIn start.toText
    pure (names.filterMap fun (name, e) =>
      match e with
      | Entry.file _ => some (start.append ⟨"", [name]⟩)
      | Entry.directory => none)
  return .list (((found.map Path.toText).mergeSort fun a b => a ≤ b).map .str)

def directorySize : Nat := 4096

def fileSize : Except Fault Value := do
  match ← disk.entry (← pathText path) with
  | .file content => return .int content.size
  | .directory => return .int directorySize

def files : SampleLibrary where
  initial := [("_temp_files", .list [])]
  keywords := [
    keyword2 "read_file_content" (.required "file_path") (.optional "encoding" (.str "utf-8"))
      fun path encoding => do outcome ((readFile (← get).disk path encoding).map .str),
    keyword3 "write_file_content" (.required "file_path") (.required "content")
      (.optional "encoding" (.str "utf-8")) writeFile,
    keyword1 "file_exists" (.required "file_path") fun path => do
      return .bool ((← get).disk.isFile (← outcome (pathText path))),
    keyword1 "directory_exists" (.required "dir_path") fun path => do
      return .bool ((← get).disk.isDirectory (← outcome (pathText path))),
    keyword2 "create_directory" (.required "dir_path") (.optional "parents" (.bool true))
      fun path parents => do
        let path ← outcome (pathArgument path)
        onDisk fun disk =>
          if parents.isTruthy then disk.ensureDirectory path else disk.allowDirectory path.toText
        return .none,
    keyword2 "copy_file" (.required "source") (.required "destination") fun source target => do
      let source ← outcome (textArgument source)
      let target ← outcome (textArgument target)
      onDisk fun disk => disk.copy source target
      return .none,
    keyword2 "move_file" (.required "source") (.required "destination") fun source target => do
      let source ← outcome (textArgument source)
      let target ← outcome (textArgument target)
      onDisk fun disk => disk.move source target
      return .none,
    keyword1 "delete_file" (.required "file_path") fun path => do
      let path ← outcome (pathText path)
      onDisk fun disk => disk.remove path
      return .none,
    keyword2 "list_files" (.required "directory") (.optional "pattern" .none)
      fun directory pattern => do outcome (listFiles (← get).disk directory pattern),
    keyword1 "get_file_size" (.required "file_path") fun path => do
      outcome (fileSize (← get).disk path),
    keyword1 "read_json_file" (.required "file_path") fun path => do
      outcome (readDocument (← get).disk path),
    keyword3 "write_json_file" (.required "file_path") (.required "data")
      (.optional "indent" (.int 2)) writeDocument,
    keyword1 "get_file_extension" (.required "file_path") fun path => outcome do
      return .str (String.ofList ((← pathArgument path).suffix.toList.dropWhile (· = '.'))),
    keyword1 "join_paths" (.rest "paths") fun paths => outcome do
      let paths ← (← items paths).mapM pathArgument
      return .str (paths.foldl Path.append ⟨"", []⟩).toText]

end KeywordDocs.Samples
