import KeywordDocs.Json.Writer
import KeywordDocs.Measure.SelfCheck

/-!
# Rounds of Measurements

A round measures the coverage of the benchmarks, then the shares of the measured code in their time,
then whether they check themselves.
-/

namespace KeywordDocs.Measure

variable (name : String) (record : Option String) (j : Json)

structure Shares where
  shares : List (String × Value) := []
  elsewhere : List (String × List (Value × Value)) := []

variable (s : Shares)

def shareLimit : Value := .int 45

def Shares.ofJson : Except Fault Shares := do
  return {
    shares := (← membersIn j "repo_time_pct").map fun (name, share) => (name, .ofJson share)
    elsewhere := (← membersIn j "hot_ext").map fun (name, places) => (name, match places with
      | .arr items => items.filterMap fun
        | .arr [share, place] => some (.ofJson share, .ofJson place)
        | _ => none
      | _ => []) }

def isFailed (share : Value) : Except Fault Bool := Value.less share (.int 0)

def Shares.valid : Except Fault (List Value) :=
  (s.shares.map (·.2)).filterM fun share => return !(← isFailed share)

def countBelow (shares : List Value) : Except Fault Nat :=
  shares.foldlM (fun n share => return if ← Value.less share shareLimit then n + 1 else n) 0

def Shares.below? : Except Fault (Option Nat) := do
  let valid ← s.valid
  if valid.isEmpty then return none
  return some (← countBelow valid)

def insertShare (s : String × Value) :
  List (String × Value) → Except Fault (List (String × Value))
  | [] => .ok [s]
  | t :: rest => do
    if ← Value.less s.2 t.2 then return s :: t :: rest
    return t :: (← insertShare s rest)

def Shares.line (name : String) (share : Value) : Except Fault String := do
  if ← isFailed share then
    return "    " ++ column 32 name ++ " " ++ (← laid ">5.1f" (.float 0.0)) ++ "%  <error>"
  let isLow ← Value.less share shareLimit
  let places := if isLow then (s.elsewhere.lookup name).getD [] else []
  let hot ← places.mapM fun (share, place) => do
    return place.display ++ " " ++ (← laid ".0f" share) ++ "%"
  return "  " ++ (if isLow then "*" else " ") ++ " " ++ column 32 name ++ " " ++
    (← laid ">5.1f" share) ++ "%" ++ if hot.isEmpty then "" else " (hot: " ++ Text.join " " hot ++ ")"

def Shares.listing : Except Fault (List String) := do
  if s.shares.isEmpty then return []
  let sorted ← s.shares.foldlM (fun sorted x => insertShare x sorted) []
  return ["", "repo_time (target 50%; * = below 45%):"] ++ (← sorted.mapM fun (n, x) => s.line n x)

def Shares.summary : Except Fault (List String) := do
  if s.shares.isEmpty then return []
  let valid ← s.valid
  return [Number.ofInt (← countBelow valid) ++ "/" ++ Number.ofInt valid.length ++
    " below repo_time 45%"]

structure FileCoverage where
  name : String
  statements : Value
  missed : Value
  percent : Value
  missing : List Value

structure Coverage where
  files : List FileCoverage := []
  percent : Value := .float 0.0
  covered : Value := .int 0
  statements : Value := .int 0
  failures : List (String × Json) := []

def nameLimit : Nat := 60

def missingLimit : Nat := 12

def shownName : String := Text.take nameLimit (Text.replace "/repo/" "" name)

def FileCoverage.ofJson : Except Fault FileCoverage := do
  let summary := Json.obj (← membersIn j "summary")
  return {
    name := shownName name
    statements := figure summary "num_statements" (.int 0)
    missed := figure summary "missing_lines" (.int 0)
    percent := figure summary "percent_covered" (.float 0.0)
    missing := Value.ofJsonItems (j.itemsOf "missing_lines") }

def Coverage.ofJson : Except Fault Coverage := do
  let totals := Json.obj (← membersIn j "totals")
  let about := Json.obj (← membersIn j "meta")
  return {
    files := ← (← membersIn j "files").mapM fun (name, file) => FileCoverage.ofJson name file
    percent := figure totals "percent_covered" (.float 0.0)
    covered := figure totals "covered_lines" (.int 0)
    statements := figure totals "num_statements" (.int 0)
    failures := ← membersIn about "_pti_bench_errors" }

def FileCoverage.comesBefore (a b : FileCoverage) : Except Fault Bool :=
  if Value.same a.percent b.percent then Value.less b.missed a.missed
  else Value.less a.percent b.percent

def insertFile (f : FileCoverage) : List FileCoverage → Except Fault (List FileCoverage)
  | [] => .ok [f]
  | g :: rest => do
    if ← f.comesBefore g then return f :: g :: rest
    return g :: (← insertFile f rest)

def FileCoverage.missingText (f : FileCoverage) : String :=
  Text.join "," ((f.missing.take missingLimit).map Value.display) ++
    if missingLimit < f.missing.length then "…" else ""

def coverageRow (width : Nat) (name : String) (statements missed percent : Value) :
  Except Fault String := do
  return column width name ++ "  " ++ (← laid ">5" statements) ++ "  " ++ (← laid ">4" missed) ++
    "  " ++ (← laid ">4.0f" percent) ++ "%"

def Coverage.table (c : Coverage) : Except Fault (List String) := do
  let files ← c.files.foldlM (fun sorted f => insertFile f sorted) []
  let width := files.foldl (fun w f => max w f.name.length) 4
  let rule := String.ofList (List.replicate (width + 42) '-')
  let rows ← files.mapM fun f => do
    return (← coverageRow width f.name f.statements f.missed f.percent) ++ "  " ++ f.missingText
  let total ← coverageRow width "TOTAL" c.statements (← Value.subtract c.statements c.covered) c.percent
  return [column width "Name" ++ "  Stmts  Miss  Cover  Missing", rule] ++ rows ++ [rule, total]

structure Setting where
  coverageFile : Option String
  benchmarks : Option String
  record : Option String
  coverage : Reply
  status : Reply
  share : Reply
  check : Reply
  now : Float
  took : Float

structure Outcome where
  exit : Option Int := none
  printed : List String := []
  record : Option String

def benchmarkCount (source : String) : Nat := (Text.lines source).countP (Text.startsWith "def bench_")

def modifiedFiles (listing : String) : List String :=
  ((Text.lines listing).filter fun l => !Text.isBlankText l).map (Text.drop 3)

def recordLines : List String := (Text.lines (record.getD "")).filter fun l => !Text.isBlankText l

def earlierCounts : List Nat :=
  (recordLines record).filterMap fun l => match Json.read l with
    | .ok j => match j.field? "n_below_repo_time" with
      | some (.int n) => some n.toNat
      | _ => none
    | .error _ => none

def leastCount : List Nat → Nat
  | [] => 0
  | n :: rest => rest.foldl min n

def coverageGoal : Value := .int 60

def stop? (counts : List Nat) : Option String :=
  let cut := counts.length - 3
  if counts.getLast? = some 0 then some "0 below"
  else if 4 ≤ counts.length && leastCount (counts.take cut) ≤ leastCount (counts.drop cut) then
    some ("no improvement in 3 rounds; best " ++ Number.ofInt (leastCount counts) ++ " below")
  else none

def toPlaces (v : Value) : Value :=
  match Value.roundPlaces 2 v with
  | .ok r => r
  | .error _ => v

def sinceLast (now : Float) (record : Option String) : Except Fault Value := do
  match (recordLines record).getLast? with
  | none => return .float 0.0
  | some last =>
    match Json.read last with
    | .error _ => .error .malformedJson
    | .ok (.obj members) =>
      let ts := Value.ofJson ((members.lookup "ts").getD .null)
      if ts.isTruthy then return toPlaces (← Value.subtract (.float now) ts)
      return .float 0.0
    | .ok _ => .error .missingAttribute

structure Findings where
  coverage : Coverage
  benchmarks : Nat
  shares : Shares
  below : Option Nat
  checked : List Checked

def Findings.recordLine (f : Findings) (s : Setting) (round : Nat) (since : Value) : Json :=
  .obj [
    ("round", .int round),
    ("ts", .float s.now),
    ("wall_since_prev_s", since.toJson),
    ("cov_measure_s", (toPlaces (.float s.took)).toJson),
    ("coverage_pct", (toPlaces f.coverage.percent).toJson),
    ("covered_lines", f.coverage.covered.toJson),
    ("num_statements", f.coverage.statements.toJson),
    ("n_bench_fns", .int f.benchmarks),
    ("n_bench_errors", .int f.coverage.failures.length),
    ("repo_time_pct", .obj (f.shares.shares.map fun (n, v) => (n, v.toJson))),
    ("n_below_repo_time", (f.below.map fun n => Json.int n).getD .null),
    ("semcheck", .obj (f.checked.map fun c => (c.name, .str c.verdict.word))),
    ("n_not_self_checking", .int (badCount f.checked))]

def modifiedListing (files : List String) : List String :=
  if files.isEmpty then []
  else ["", "** repo modified (" ++ Number.ofInt files.length ++
    " file(s)) — revert these; only microbench.py is yours to edit:"] ++ files.map ("   " ++ ·)

def orElse {α : Type} (usual : α) : Except Fault α → α
  | .ok a => a
  | .error _ => usual

def Setting.report (s : Setting) (coverage : Coverage) : Except Fault Outcome := do
  let modified := modifiedFiles s.status.printed
  let shares := orElse {} (Shares.ofJson (s.share.report?.getD .null))
  let checked := orElse [] (checkedOf (!modified.isEmpty) (s.check.report?.getD .null))
  let found : Findings := {
    coverage, shares, checked
    benchmarks := benchmarkCount (s.benchmarks.getD "")
    below := ← shares.below? }
  let round := (recordLines s.record).length + 1
  let record := match sinceLast s.now s.record with
    | .ok since => some (s.record.getD "" ++ (found.recordLine s round since).compact ++ "\n")
    | .error _ => s.record
  let summary := [Number.ofInt found.benchmarks ++ " benches",
    (← laid ".1f" coverage.percent) ++ "% covered"] ++ (← shares.summary) ++
    Checked.summary checked ++ ["measured in " ++ (← laid ".1f" (.float s.took)) ++ "s"]
  let isCovered := !(← Value.less coverage.percent coverageGoal)
  let stop := if isCovered then
      found.below.bind fun n => stop? (earlierCounts s.record ++ [n])
    else none
  let printed := (← coverage.table) ++ (← shares.listing) ++ modifiedListing modified ++
    (← Checked.listing checked) ++
    ["", "[round " ++ Number.ofInt round ++ ": " ++ Text.join ", " summary ++ "]"] ++
    (stop.map fun why =>
      ["", ">>> STOP: repo_time converged (" ++ why ++ "). Finalize microbench.py now. <<<"]).getD []
  return { printed, record }

def Setting.run (s : Setting) : Except Fault Outcome :=
  match s.coverage, s.coverageFile with
  | .ended 0 _ _, some text =>
    match Json.read text with
    | .ok j => Coverage.ofJson j >>= s.report
    | .error _ => .error .malformedJson
  | .ended code printed complaints, _ =>
    .ok {
      exit := some (if code = 0 then 1 else code)
      printed := ["coverage measurement failed (exit " ++ Number.ofInt code ++ ")",
        printed ++ complaints]
      record := s.record }
  | .timedOut, _ => .error .fileSystem

end KeywordDocs.Measure
