import KeywordDocs.Json.Reader
import KeywordDocs.Library.Record
import KeywordDocs.Text.Search
import KeywordDocs.Value.Format
import KeywordDocs.Value.Order

/-!
# Self-Checking Benchmarks

A benchmark is worth keeping if its result shows its work: it returns something, the same twice, not merely
its input, and something else for another input, and most of its time goes into the measured code.
-/

namespace KeywordDocs.Measure

inductive Reply where
  | ended (code : Int) (printed complaints : String)
  | timedOut

def Reply.printed : Reply → String
  | .ended _ printed _ => printed
  | .timedOut => ""

def Reply.report? (r : Reply) : Option Json :=
  (Json.read ((Text.lines (Text.trim r.printed)).getLastD "")).toOption

def figure (report : Json) (key : String) (usual : Value) : Value :=
  ((report.field? key).map Value.ofJson).getD usual

def membersIn (report : Json) (key : String) : Except Fault (List (String × Json)) :=
  match report.field? key with
  | none | some .null => .ok []
  | some (.obj members) => .ok members
  | some other => if other.isTruthy then .error .missingAttribute else .ok []

def laid (layout : String) (v : Value) : Except Fault String := v.laidOut layout.toList

def column (width : Nat) (s : String) : String := s ++ String.ofList (List.replicate (width - s.length) ' ')

inductive Verdict where
  | failed
  | returnsNothing
  | unstable
  | returnsInput
  | lowShare
  | tooFast
  | withoutParameters
  | invariant
  | sourceModified
  | good

def Verdict.word : Verdict → String
  | .failed => "error"
  | .returnsNothing => "returns-none"
  | .unstable => "unstable"
  | .returnsInput => "returns-input"
  | .lowShare => "low-repo-time"
  | .tooFast => "too-fast"
  | .withoutParameters => "ok-unparam"
  | .invariant => "param-invariant"
  | .sourceModified => "repo-modified"
  | .good => "ok"

def Verdict.isBad : Verdict → Bool
  | .withoutParameters | .good => false
  | _ => true

structure Trial where
  kind : Option String
  repeats : List Json
  inputs : List Json
  byParameter : List Json
  shares : List Value
  times : List Value

variable (t : Trial)

def samePrint (a b : Json) : Bool := Value.same (.ofJson a) (.ofJson b)

def Trial.ofJson (j : Json) : Except Fault Trial := do
  return {
    kind := ← match j.field? "ret_type" with
      | none | some .null => pure none
      | some (.str s) => pure (if s.isEmpty then none else some s)
      | some _ => .error .missingAttribute
    repeats := j.itemsOf "fp_stable"
    inputs := j.itemsOf "param_fps"
    byParameter := (← membersIn j "fp_by_param").map (·.2)
    shares := (← membersIn j "repo_frac").map fun m => .ofJson m.2
    times := (← membersIn j "repo_tt_ms").map fun m => .ofJson m.2 }

def median? (figures : List Value) : Except Fault (Option Value) := do
  let sorted ← Value.sort figures
  let half := sorted.length / 2
  match sorted[half]? with
  | none => return none
  | some upper =>
    if sorted.length % 2 = 1 then return some upper
    let lower := (sorted[half - 1]?).getD upper
    return some (← Value.divide (← Value.add lower upper) (.int 2))

def least? (figures : List Value) : Except Fault (Option Value) := do
  return (← Value.sort figures).head?

def allSame : List Json → Bool
  | [] => true
  | p :: rest => rest.all (samePrint p)

def Trial.isStable : Bool :=
  match t.repeats with
  | [a, b] => samePrint a b
  | _ => false

def Trial.returnsInput : Bool := t.repeats.head?.any fun p => t.inputs.any (samePrint p)

def isBelow (limit : Value) : Option Value → Except Fault Bool
  | some x => Value.less x limit
  | none => .ok false

def Trial.verdict : Except Fault Verdict := do
  if t.kind.all (Text.startsWith "<") then return .failed
  if t.kind = some "NoneType" then return .returnsNothing
  if !t.isStable then return .unstable
  if t.returnsInput then return .returnsInput
  if ← isBelow (.float 0.5) (← least? t.shares) then return .lowShare
  if ← isBelow (.float 1.0) (← median? t.times) then return .tooFast
  if t.byParameter.length < 2 then return .withoutParameters
  if allSame t.byParameter then return .invariant
  return .good

structure Checked where
  name : String
  verdict : Verdict
  kind : Option String
  share : Value
  time : Value

variable (cs : List Checked)

def Trial.check (isModified : Bool) (name : String) (t : Trial) : Except Fault Checked := do
  let verdict ← t.verdict
  return {
    name
    verdict := if isModified then .sourceModified else verdict
    kind := t.kind
    share := ← Value.multiply ((← least? t.shares).getD (.float 0.0)) (.int 100)
    time := (← median? t.times).getD (.float 0.0) }

def checkedOf (isModified : Bool) (j : Json) : Except Fault (List Checked) := do
  (← membersIn j "semcheck").filterMapM fun (name, trial) => match trial with
    | .obj _ => do return some (← (← Trial.ofJson trial).check isModified name)
    | _ => return none

def Checked.line (c : Checked) : Except Fault String := do
  return "  " ++ (if c.verdict.isBad then "*" else " ") ++ " " ++ column 32 c.name ++ " " ++
    column 16 c.verdict.word ++ " (" ++ c.kind.getD "?" ++ ", repo " ++ (← laid ".0f" c.share) ++
    "%) " ++ (← laid ".1f" c.time) ++ "ms"

def hints : List String := [
  "  returns-none: run() has no return — collect and return the call results",
  "  unstable: seed RNG in setup; avoid time/uuid/id in the return",
  "  returns-input: return repo output, not the parameter value",
  "  low-repo-time: <50% of run() time is in repo code — move glue to setup",
  "  param-invariant: return something derived from run()'s work, not setup",
  "  repo-modified: revert edits to repo files (git checkout -- <path>)"]

def badCount : Nat := cs.countP (·.verdict.isBad)

def Checked.listing : Except Fault (List String) := do
  if cs.isEmpty then return []
  let ordered := cs.filter (·.verdict.isBad) ++ cs.filter (!·.verdict.isBad)
  return ["", "self-check (* = fix needed):"] ++ hints ++ (← ordered.mapM Checked.line)

def Checked.summary : List String :=
  if cs.isEmpty then []
  else [Number.ofInt (badCount cs) ++ "/" ++ Number.ofInt cs.length ++ " not self-checking"]

end KeywordDocs.Measure
