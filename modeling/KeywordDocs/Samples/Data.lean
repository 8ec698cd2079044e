import KeywordDocs.Digest.Hash
import KeywordDocs.Json.Reader
import KeywordDocs.Pattern.Reader
import KeywordDocs.Samples.Basic
import KeywordDocs.Samples.Kinds
import KeywordDocs.Value.Serial

/-!
# A Library for Data

Checking, changing, filtering, joining, comparing and summing up data.
-/

namespace KeywordDocs.Samples

open Text

variable (v first : Value)

def readIfText : Value → Except Fault Value
  | .str s =>
    match Json.read s with
    | .ok j => .ok (.ofJson j)
    | .error _ => .error .malformedJson
  | v => .ok v

def underKey (v key : Value) : Except Fault Value :=
  match v with
  | .dict entries => .ok ((entryOf key entries).getD .none)
  | _ => .error .wrongKind

def isOfKind (v kind : Value) : Except Fault Bool :=
  match kind with
  | .kind name => .ok (isInstance v name)
  | _ => .error .wrongKind

def hasShape (v : Value) : List (Value × Value) → Except Fault Bool
  | [] => .ok true
  | (key, kind) :: rest => do
    if !(← isWithin key v) then return false
    if !(← isOfKind (← underKey v key) kind) then return false
    hasShape v rest

def isShaped (v schema : Value) : Except Fault Value :=
  match readIfText v with
  | .error _ => .ok (.bool false)
  | .ok v => do return .bool (← hasShape v (← entriesFor schema))

def alongPath (default : Value) : Value → List String → Except Fault Value
  | v, [] => .ok v
  | v, part :: rest => do
    match ← getOr v (.str part) default with
    | .none => return .none
    | next => alongPath default next rest

def orDefault (default : Value) : Value → Value
  | .none => default
  | v => v

def sourceValue (v field default : Value) : Except Fault Value := do
  if ← isWithin (.str ".") field then
    return orDefault default (← alongPath default v (splitOn "." (← textFor field)))
  getOr v field default

def transformed (v mapping default : Value) : Except Fault Value := do
  let v ← readIfText v
  let fields ← (← entriesFor mapping).mapM fun (target, source) => do
    return (target, ← sourceValue v source default)
  return .dict fields

def isNumeric : Bool := isInstance v "int" || isInstance v "float"

def meets (condition value item : Value) : Except Fault Bool :=
  match condition with
  | .str "equals" => .ok (item.same value)
  | .str "contains" => do return contains (← textArgument value) item.display
  | .str "greater_than" => if isNumeric item then value.less item else .ok false
  | .str "less_than" => if isNumeric item then item.less value else .ok false
  | .str "type_is" =>
    match value with
    | .kind name => .ok (isInstance item name)
    | other => .ok (isInstance item other.kindName)
  | .str "matches_regex" => do
    let m ← Matcher.read (← textArgument value)
    return (m.matchStart item.display).isSome
  | _ => .ok false

def selected (collection condition value : Value) : Except Fault Value := do
  return .list (← (← items collection).filterM (meets condition value))

def pairOf : Except Fault (Value × Value) := do
  match ← items v with
  | [k, w] => if k.isHashable then return (k, w) else .error .wrongKind
  | _ => .error .badValue

def entriesOrPairs : Value → Except Fault (List (Value × Value))
  | .dict entries => .ok entries
  | v => do (← items v).mapM pairOf

def mergeDeep (others : List Value) : Except Fault Value :=
  match first with
  | .dict entries => do return .dict ((← others.mapM entriesFor).foldl deepMerge entries)
  | .list _ | .set _ => do
    -- A copy can be made, but no key of a dictionary can be set in it.
    others.forM fun d => do
      if !(← entriesFor d).isEmpty then throw .wrongKind
    return first
  | _ => .error .missingAttribute

def mergeStrategy (strategy : Value) : List Value → Except Fault Value
  | [] => .ok (.dict [])
  | first :: others =>
    match strategy with
    | .str "keep_first" => do
      return .dict ((← (first :: others).mapM entriesFor).foldl addMissing [])
    | .str "deep_merge" => mergeDeep first others
    | _ => do return .dict ((← (first :: others).mapM entriesOrPairs).foldl setEntries [])

def placeholders : Nat → List Char → List (List Char)
  | 0, _ => []
  | _, [] => []
  | fuel + 1, c :: cs =>
    if c = '\x7b' then
      match cs.span fun c => c ≠ '\x7d' with
      | (inner, _ :: rest) => if inner.isEmpty then placeholders fuel cs else inner :: placeholders fuel rest
      | (_, []) => placeholders fuel cs
    else placeholders fuel cs

def placeholderParts (p : List Char) : List Char × Option (List Char) × Option (List Char) :=
  match splitAtFirst [':'] p with
  | some (name, default) => (name, some default, none)
  | none =>
    match splitAtFirst ['!'] p with
    | some (name, change) => (name, none, some change)
    | none => (p, none, none)

def changedCase (change : Option String) (s : String) : String :=
  match change with
  | some "upper" => upper s
  | some "lower" => lower s
  | some "title" => title s
  | _ => s

def placeholderText (bindings missing : Value) (p : List Char) : Except Fault (Option String) := do
  let (name, default, change) := placeholderParts p
  let key := Value.str (String.ofList name)
  let shown (v : Value) := some (changedCase (change.map String.ofList) v.display)
  if ← isWithin key bindings then return shown (← underKey bindings key)
  match default, missing with
  | some d, _ => return shown (.str (String.ofList d))
  | none, .str "error" => .error .badValue
  | none, .str "default" => return shown (.str "")
  | none, _ => return none

def fillPlaceholders (template bindings missing : Value) : Except Fault Value := do
  let s ← textArgument template
  let filled ← (placeholders s.length s.toList).foldlM (fun (result : String) p => do
    match ← placeholderText bindings missing p with
    | some text => return replace (String.ofList ('\x7b' :: p ++ ['\x7d'])) text result
    | none => return result) s
  return .str filled

def findingValue (f : Finding) : Value :=
  let texts := f.groups.map fun g => Value.str (String.ofList (g.getD []))
  match texts with
  | [] => .str (String.ofList f.text)
  | [t] => t
  | ts => .tuple ts

def oneOrMany : List Value → Value
  | [] => .str ""
  | [v] => v
  | vs => .list vs

def extracted (text pattern group : Value) : Except Fault Value := do
  let m ← Matcher.read (← textArgument pattern)
  let found := (m.all (← textArgument text)).map findingValue
  match group with
  | .none => return oneOrMany found
  | g => return oneOrMany (← found.mapM fun
    | .tuple vs => do itemAt (← intArgument g) vs
    | v => .ok v)

def Comparison.toValue (c : Comparison) : Value :=
  .dict [(.str "equal", .bool c.equal), (.str "added", .dict c.added),
    (.str "removed", .dict c.removed),
    (.str "modified", .dict (c.modified.map fun (k, v, w) => (k, .tuple [v, w])))]

def sameMembers (first second : List Value) : Except Fault Bool := do
  return Value.same (.set (← Value.distinct first)) (.set (← Value.distinct second))

def compared (first second ignoreOrder : Value) : Except Fault Value :=
  match first, second with
  | .dict as, .dict bs => .ok (compareEntries as bs).toValue
  | .list as, .list bs => do
    if !ignoreOrder.isTruthy then return (compareItems as bs).toValue
    if ← sameMembers as bs then return Comparison.toValue { equal := true }
    return .dict [(.str "equal", .bool false),
      (.str "added", .list (bs.filter fun b => !as.any b.alike)),
      (.str "removed", .list (as.filter fun a => !bs.any a.alike)), (.str "modified", .dict [])]
  | _, _ => .ok (Comparison.toValue { equal := true })

def descend : Value → List String → Value
  | v, [] => v
  | .dict entries, part :: rest => descend ((entryOf (.str part) entries).getD .none) rest
  | _, _ :: _ => .none

def groupOf (item key default : Value) : Except Fault Value := do
  if ← isWithin (.str ".") key then
    match descend item (splitOn "." (← textFor key)) with
    | .none => return default
    | v => return .str v.display
  return .str (← getOr item key default).display

def grouped (collection key default : Value) : Except Fault Value := do
  let groups ← (← items collection).foldlM (fun (groups : List (Value × Value)) item => do
    let g ← groupOf item key default
    if !g.isHashable then .error .wrongKind
    let members := match entryOf g groups with
      | some (.list vs) => vs
      | _ => []
    return setEntry g (.list (members ++ [item])) groups) []
  return .dict groups

def least (rest : List Value) : Except Fault Value :=
  rest.foldlM (fun a b => do if ← b.less a then return b else return a) first

def greatest (rest : List Value) : Except Fault Value :=
  rest.foldlM (fun a b => do if ← a.less b then return b else return a) first

def middle (sorted : List Value) : Except Fault Value := do
  let n := sorted.length
  if n % 2 = 1 then return sorted.getD (n / 2) .none
  ((sorted.getD (n / 2 - 1) .none).add (sorted.getD (n / 2) .none)) >>= (·.divide (.int 2))

def percentileIndex (p count : Nat) : Nat := (Float.ofNat p / 100.0 * Float.ofNat (count - 1)).toUInt64.toNat

def percentiles (sorted : List Value) : Value :=
  .dict ([25, 50, 75, 95].map fun p =>
    (.str (Number.ofInt (p : Nat)), sorted.getD (percentileIndex p sorted.length) .none))

def noStatistics : Value :=
  .dict (["count", "sum", "mean", "median", "min", "max", "range"].map fun k => (.str k, .int 0))

def statistics (numbers withPercentiles : Value) : Except Fault Value := do
  if !numbers.isTruthy then return noStatistics
  match ← items numbers with
  | [] => return noStatistics
  | first :: rest =>
    let all := first :: rest
    let sorted ← Value.sort all
    let total ← Value.total all
    let mean ← total.divide (.int all.length)
    let median ← middle sorted
    let low ← least first rest
    let high ← greatest first rest
    let figures : List (Value × Value) := [(.str "count", .int all.length), (.str "sum", total),
      (.str "mean", ← mean.roundPlaces 2), (.str "median", ← median.roundPlaces 2),
      (.str "min", low), (.str "max", high), (.str "range", ← high.subtract low)]
    return .dict (figures ++
      if withPercentiles.isTruthy then [(.str "percentiles", percentiles sorted)] else [])

def snapshotMetadata (now : Moment) (v : Value) : Except Fault Value := do
  let sizes : List (Value × Value) := match v with
    | .dict entries => [(.str "size", .int entries.length)]
    | .list vs => [(.str "size", .int vs.length)]
    | .str s => [(.str "size", .int s.length), (.str "bytes", .int s.utf8ByteSize)]
    | _ => []
  let text ← match v with
    | .dict _ | .list _ => (v.serial true).map Json.compact
    | _ => pure v.display
  return .dict ([(.str "timestamp", .str (now.iso "T")), (.str "type", .str v.kindName)] ++ sizes ++
    [(.str "hash", .str (Digest.hex (Digest.md5 text.toUTF8.toList)))])

def snapshot (now : Moment) (v withMetadata : Value) : Except Fault Value := do
  if !withMetadata.isTruthy then return .dict [(.str "data", v)]
  return .dict [(.str "data", v), (.str "metadata", ← snapshotMetadata now v)]

def data : SampleLibrary where
  initial := [("_cache", .dict []), ("_history", .list [])]
  keywords := [ keyword2 "validate_json_structure" (.required "json_data") (.required "schema")
      fun v s => outcome (isShaped v s),
    keyword3 "transform_json_data" (.required "data") (.required "mapping")
      (.optional "default_value" .none) fun v m d => outcome (transformed v m d),
    keyword3 "filter_list_by_condition" (.required "items") (.required "condition")
      (.optional "value" .none) fun vs c v => outcome (selected vs c v),
    keyword2 "merge_dictionaries" (.rest "dictionaries") (.named "strategy" (.str "override"))
      fun ds s => outcome do mergeStrategy s (← items ds),
    keyword3 "format_string_template" (.required "template") (.required "variables")
      (.optional "missing_handler" (.str "skip")) fun t vs m => outcome (fillPlaceholders t vs m),
    keyword3 "extract_data_by_pattern" (.required "text") (.required "pattern")
      (.optional "group" .none) fun t p g => outcome (extracted t p g),
    keyword3 "compare_data_structures" (.required "data1") (.required "data2")
      (.optional "ignore_order" (.bool false)) fun a b o => outcome (compared a b o),
    keyword3 "group_items_by_key" (.required "items") (.required "key")
      (.optional "default_group" (.str "other")) fun vs k d => outcome (grouped vs k d),
    keyword2 "calculate_statistics" (.required "numbers")
      (.optional "include_percentiles" (.bool false)) fun ns p => outcome (statistics ns p),
    keyword2 "create_data_snapshot" (.required "data") (.optional "include_metadata" (.bool true))
      fun v m => do outcome (snapshot (← get).now v m)]

end KeywordDocs.Samples
