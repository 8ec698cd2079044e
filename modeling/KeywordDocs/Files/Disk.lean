import KeywordDocs.Fault
import KeywordDocs.Text.Search

/-!
# Disks

The files and directories that a run sees, as a value: what a run does to them is a new disk.
-/

namespace KeywordDocs.Files

open Text

structure Path where
  root : String := ""
  parts : List String := []
  deriving DecidableEq

variable (p : Path)

namespace Path

def rootOf (s : String) : String :=
  if !startsWith "/" s then ""
  else if startsWith "//" s && !startsWith "///" s then "//"
  else "/"

def ofText (s : String) : Path where
  root := rootOf s
  parts := (splitOn "/" s).filter fun p => !p.isEmpty && p ≠ "."

def isAbsolute : Bool := !p.root.isEmpty

def toText : String :=
  let whole := p.root ++ join "/" p.parts
  if whole.isEmpty then "." else whole

def components : List String :=
  if p.isAbsolute then p.root :: p.parts else p.parts

def name : String := p.parts.getLast?.getD ""

def parent : Path := { p with parts := p.parts.dropLast }

def append (p q : Path) : Path :=
  if q.isAbsolute then q else { p with parts := p.parts ++ q.parts }

def splitName (name : String) : String × String :=
  let cs := name.toList.reverse
  match cs.span (· ≠ '.') with
  | (e :: ending, '.' :: b :: before) =>
    (String.ofList (b :: before).reverse, "." ++ String.ofList (e :: ending).reverse)
  | _ => (name, "")

def stem : String := (splitName p.name).1

def suffix : String := (splitName p.name).2

end Path

abbrev Place := List String

inductive Entry where
  | file (content : ByteArray)
  | directory

structure Disk where
  home : Place := []
  entries : List (Place × Entry) := []

variable (d : Disk) (path : String)

namespace Disk

def at? (p : Place) : Option Entry :=
  if p.isEmpty then some .directory else d.entries.lookup p

def setEntry (p : Place) (e : Entry) : List (Place × Entry) → List (Place × Entry)
  | [] => [(p, e)]
  | (q, old) :: rest => if q = p then (q, e) :: rest else (q, old) :: setEntry p e rest

def put (p : Place) (e : Entry) : Disk := { d with entries := setEntry p e d.entries }

def walk (d : Disk) (p : Place) : List String → Except Fault Place
  | [] => .ok p
  | step :: rest =>
    match d.at? p with
    | some .directory =>
      if step.isEmpty || step = "." then d.walk p rest
      else if step = ".." then d.walk p.dropLast rest
      else d.walk (p ++ [step]) rest
    | some (.file _) => .error .notDirectory
    | none => .error .missingFile

def place : Except Fault Place :=
  if path.isEmpty then .error .missingFile
  else d.walk (if startsWith "/" path then [] else d.home) (splitOn "/" path)

def entry : Except Fault Entry := do
  match d.at? (← d.place path) with
  | some e => return e
  | none => .error .missingFile

def isFile : Bool :=
  match d.entry path with
  | .ok (.file _) => true
  | _ => false

def isDirectory : Bool :=
  match d.entry path with
  | .ok .directory => true
  | _ => false

def read : Except Fault ByteArray := do
  match ← d.entry path with
  | .file content => return content
  | .directory => .error .isDirectory

def readText : Except Fault String := do
  match String.fromUTF8? (← d.read path) with
  | some s => return uniformNewlines s
  | none => .error .undecodable

def write (content : ByteArray) : Except Fault Disk := do
  let p ← d.place path
  match d.at? p with
  | some .directory => .error .isDirectory
  | _ => return d.put p (.file content)

def writeText (path text : String) : Except Fault Disk := d.write path text.toUTF8

def makeDirectory : Except Fault Disk := do
  let p ← d.place path
  match d.at? p with
  | some _ => .error .alreadyExists
  | none => return d.put p .directory

def allowDirectory : Except Fault Disk :=
  match d.makeDirectory path with
  | .ok d => .ok d
  | .error f => if d.isDirectory path then .ok d else .error f

def ensureParts (d : Disk) (root : String) : List String → Except Fault Disk
  | [] => d.allowDirectory (Path.toText ⟨root, []⟩)
  | part :: before =>
    let path := Path.toText ⟨root, (part :: before).reverse⟩
    match d.makeDirectory path with
    | .error .missingFile => do (← d.ensureParts root before).allowDirectory path
    | _ => d.allowDirectory path

def ensureDirectory (p : Path) : Except Fault Disk := d.ensureParts p.root p.parts.reverse

def add (path text : String) : Disk :=
  match d.ensureDirectory (Path.ofText path).parent with
  | .ok d =>
    match d.writeText path text with
    | .ok d => d
    | .error _ => d
  | .error _ => d

def ofFiles (home : Place) (files : List (String × String)) : Disk :=
  let entries := (List.range home.length).map fun n => (home.take (n + 1), Entry.directory)
  files.foldl (fun d f => d.add f.1 f.2) { home, entries }

def files : List (String × ByteArray) :=
  d.entries.filterMap fun (p, e) =>
    match e with
    | .file content =>
      if d.home.isPrefixOf p then some (join "/" (p.drop d.home.length), content) else none
    | .directory => none

end Disk

end KeywordDocs.Files
