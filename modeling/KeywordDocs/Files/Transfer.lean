import KeywordDocs.Files.Disk
import KeywordDocs.Pattern.Find

/-!
# Copying, Moving and Removing

What happens to files and directories as a whole.
-/

namespace KeywordDocs.Files

open Text

namespace Disk

variable (d : Disk) (source path target : String)

def remove : Except Fault Disk := do
  let p ← d.place path
  match d.at? p with
  | some (.file _) => return { d with entries := d.entries.filter fun e => e.1 ≠ p }
  | some .directory => .error .isDirectory
  | none => .error .missingFile

def lastName : String := ((splitOn "/" (trimRightOf (· = '/') path)).getLast?).getD ""

def afterSlash : String := ((splitOn "/" path).getLast?).getD ""

def joined (path name : String) : String :=
  if endsWith "/" path || path.isEmpty then path ++ name else path ++ "/" ++ name

def isSame (a b : String) : Bool :=
  match d.place a, d.place b with
  | .ok p, .ok q => p = q && (d.at? p).isSome
  | _, _ => false

def copy : Except Fault Disk := do
  let target := if d.isDirectory target then joined target (afterSlash source) else target
  if d.isSame source target then .error .sameFile
  d.write target (← d.read source)

def relocate (source target : Place) : Disk :=
  let kept := d.entries.filter fun e => !target.isPrefixOf e.1
  { d with entries := kept.map fun (p, e) =>
      if source.isPrefixOf p then (target ++ p.drop source.length, e) else (p, e) }

def rename : Except Fault Disk := do
  let p ← d.place source
  let q ← d.place target
  match d.at? p, d.at? q with
  | none, _ => .error .missingFile
  | some _, none =>
    if p.isPrefixOf q then .error .badTransfer else return d.relocate p q
  | some (.file _), some .directory => .error .isDirectory
  | some (.file _), some (.file _) => if p = q then return d else return d.relocate p q
  | some .directory, some (.file _) => .error .notDirectory
  | some .directory, some .directory => if p = q then return d else .error .alreadyExists

def move : Except Fault Disk := do
  if d.isDirectory target && d.isSame source target then return d
  let final ← if d.isDirectory target then
      let final := joined target (lastName source)
      if d.isFile final || d.isDirectory final then .error .badTransfer else .ok final
    else .ok target
  match d.rename source final with
  | .ok d => return d
  | .error .badTransfer => .error .badTransfer
  | .error f =>
    if d.isDirectory source then
      if d.isFile final then .error .alreadyExists
      let d ← d.ensureDirectory (Path.ofText final).parent
      d.rename source final
    else if d.isFile source then do
      let d ← d.copy source final
      d.remove source
    else .error (if f = .notDirectory then f else .missingFile)

def childrenAt (p : Place) : List (String × Entry) :=
  d.entries.filterMap fun (q, e) =>
    match q.getLast? with
    | some name => if q.dropLast = p then some (name, e) else none
    | none => none

def namesIn : Except Fault (List (String × Entry)) := do
  let p ← d.place path
  match d.at? p with
  | some .directory => return d.childrenAt p
  | some (.file _) => .error .notDirectory
  | none => .error .missingFile

end Disk

namespace Wildcard

def bracketed (cs : List Char) : Option (List Char × List Char) :=
  let (mark, rest) := match cs with
    | '!' :: rest => (['!'], rest)
    | _ => ([], cs)
  let (first, rest) := match rest with
    | ']' :: rest => ([']'], rest)
    | _ => ([], rest)
  match rest.span (· ≠ ']') with
  | (inner, ']' :: after) => some (mark ++ first ++ inner, after)
  | _ => none

def ranges : List Char → List CharTest
  | a :: '-' :: b :: rest => if a ≤ b then .range a b :: ranges rest else ranges rest
  | a :: rest => .range a a :: ranges rest
  | [] => []

def bracketTest : List Char → CharTest
  | '!' :: rest => .not (.oneOf (ranges rest))
  | cs => .oneOf (ranges cs)

def pattern : Nat → List Char → Pattern
  | 0, _ => .finish false
  | _, [] => .finish false
  | fuel + 1, c :: cs =>
    let one (t : CharTest) (rest : List Char) : Pattern := .seq (.char t) (pattern fuel rest)
    if c = '*' then .seq (.times (.char (.not (.oneOf []))) 0 none true) (pattern fuel cs)
    else if c = '?' then one (.not (.oneOf [])) cs
    else if c = '[' then
      match bracketed cs with
      | some (inner, rest) => one (bracketTest inner) rest
      | none => one (.range '[' '[') cs
    else one (.range c c) cs

def fits (wildcard name : String) : Bool :=
  let cs := wildcard.toList
  (Matcher.matchStart { pattern := pattern (cs.length + 1) cs } name).isSome

def isWild (part : String) : Bool := part.toList.any fun c => c = '*' || c = '?' || c = '['

end Wildcard

namespace Disk

def directoriesBelow (d : Disk) : Nat → Path → List Path
  | 0, p => [p]
  | fuel + 1, p =>
    let below := match d.namesIn p.toText with
      | .ok names => names.filterMap fun (name, e) =>
        match e with
        | Entry.directory => some (p.append ⟨"", [name]⟩)
        | Entry.file _ => none
      | .error _ => []
    p :: below.flatMap (d.directoriesBelow fuel)

def selectFrom (d : Disk) (starts : List Path) : List String → List Path
  | [] => starts
  | part :: rest =>
    let next := if part = "**" then
        (starts.filter fun p => d.isDirectory p.toText).flatMap
          (d.directoriesBelow d.entries.length)
      else if Wildcard.isWild part then
        starts.flatMap fun p =>
          match d.namesIn p.toText with
          | .ok names => names.filterMap fun (name, _) =>
            if Wildcard.fits part name then some (p.append ⟨"", [name]⟩) else none
          | .error _ => []
      else
        (starts.map fun p => p.append ⟨"", [part]⟩).filter fun p =>
          d.isFile p.toText || d.isDirectory p.toText
    d.selectFrom next.eraseDups rest

def select (d : Disk) (start : Path) (patterns : String) : Except Fault (List Path) :=
  let path := Path.ofText patterns
  if path.isAbsolute then .error .unsupported
  else if path.parts.isEmpty then .error .outOfRange
  else if path.parts.any fun p => p ≠ "**" && contains "**" p then .error .badValue
  else if endsWith "/" patterns then .ok []
  else .ok ((d.selectFrom [start] path.parts).filter fun p => d.isFile p.toText)

end Disk

end KeywordDocs.Files
