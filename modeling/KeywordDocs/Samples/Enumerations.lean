import KeywordDocs.Samples.Basic
import KeywordDocs.Samples.Kinds

/-!
# A Library with Enumerations

Keywords whose arguments are members of enumerations.
-/

namespace KeywordDocs.Samples

variable (enumeration name : String)

def enumerations : List (String × List (String × Value)) := [
  ("LogLevel", [("DEBUG", .str "debug"), ("INFO", .str "info"), ("WARNING", .str "warning"),
    ("ERROR", .str "error"), ("CRITICAL", .str "critical")]),
  ("Status", [("PENDING", .int 1), ("ACTIVE", .int 2), ("COMPLETED", .int 3),
    ("CANCELLED", .int 4), ("FAILED", .int 5)]),
  ("Priority", [("LOW", .int 1), ("MEDIUM", .int 2), ("HIGH", .int 3), ("URGENT", .int 4)]),
  ("Color", [("RED", .str "red"), ("GREEN", .str "green"), ("BLUE", .str "blue"),
    ("YELLOW", .str "yellow"), ("PURPLE", .str "purple")]),
  ("TemperatureUnit", [("CELSIUS", .str "celsius"), ("FAHRENHEIT", .str "fahrenheit"),
    ("KELVIN", .str "kelvin")])]

def membersOf : List Value :=
  ((enumerations.lookup enumeration).getD []).map fun (name, v) => .member .plain enumeration name v

def memberNamed? : Option Value :=
  (((enumerations.lookup enumeration).getD []).lookup name).map fun v => .member .plain enumeration name v

def memberNamed : Value := (memberNamed? enumeration name).getD .none

def memberValue : Value → Except Fault Value
  | .member _ _ _ v => .ok v
  | _ => .error .missingAttribute

def memberName : Value → Except Fault Value
  | .member _ _ name _ => .ok (.str name)
  | _ => .error .missingAttribute

def isMemberOf : Value → Except Fault Bool
  | .member _ e _ _ => .ok (e = enumeration)
  | _ => .error .wrongKind

def unit : Value := memberNamed "TemperatureUnit" name

def toCelsius (v source : Value) : Except Fault Value :=
  if source.same (unit "FAHRENHEIT") then do
    (← (← v.subtract (.int 32)).multiply (.int 5)).divide (.int 9)
  else if source.same (unit "KELVIN") then v.subtract (.float 273.15)
  else .ok v

def ofCelsius (v target : Value) : Except Fault Value :=
  if target.same (unit "FAHRENHEIT") then do
    (← (← v.multiply (.int 9)).divide (.int 5)).add (.int 32)
  else if target.same (unit "KELVIN") then v.add (.float 273.15)
  else .ok v

def convertTemperature (v source target : Value) : Except Fault Value := do
  if source.same target then return v
  ofCelsius (← toCelsius v source) target

def statusMeanings : List (String × String) := [ ("PENDING", "Item is waiting to be processed"),
  ("ACTIVE", "Item is currently being processed"),
  ("COMPLETED", "Item processing has been completed"),
  ("CANCELLED", "Item processing was cancelled"),
  ("FAILED", "Item processing failed")]

def statusMeaning (status : Value) : String :=
  match status with
  | .member _ "Status" name _ => (statusMeanings.lookup name).getD "Unknown status"
  | _ => "Unknown status"

def statusOfValue? (v : Value) : Option Value :=
  (membersOf "Status").find? fun
    | .member _ _ _ w => w.same v
    | _ => false

def statusEntries (status : Value) : Except Fault (List (Value × Value)) := do
  return [(.str "status", ← memberName status), (.str "status_value", ← memberValue status)]

def priorityEntries (priority : Value) : Except Fault (List (Value × Value)) := do
  return [(.str "priority", ← memberName priority), (.str "priority_value", ← memberValue priority)]

def logLine (message level colour : Value) : Except Fault String := do
  let shownColour ← if colour.isTruthy then do
      pure (" [" ++ (← memberValue colour).display ++ "]")
    else pure ""
  let level ← textFor (← memberValue level)
  return "[" ++ Text.upper level ++ "]" ++ shownColour ++ " " ++ message.display

def pendingStatus : Formal := .optional "status" (memberNamed "Status" "PENDING")

def mediumPriority : Formal := .optional "priority" (memberNamed "Priority" "MEDIUM")

def infoLevel : Formal := .optional "level" (memberNamed "LogLevel" "INFO")

def enumerated : SampleLibrary where
  keywords := [ keyword1 "set_log_level" infoLevel fun level => do
      let v ← outcome (memberValue level)
      printLine ("Setting log level to: " ++ v.display)
      return v,
    keyword3 "process_with_status" (.required "item") pendingStatus mediumPriority
      fun item status priority => outcome do
        return .dict ((.str "item", item) :: (← statusEntries status) ++ (← priorityEntries priority)),
    keyword2 "filter_by_status" (.required "items") (.required "status") fun vs _ => outcome do
      return .list ((← items vs).filter Value.isTruthy),
    keyword2 "set_color" (.required "color") (.optional "intensity" .none) fun colour intensity => do
      let v ← outcome (memberValue colour)
      let strength := if intensity.isTruthy then " at " ++ intensity.display ++ "%" else ""
      printLine ("Setting color to " ++ v.display ++ strength)
      return .none,
    keyword3 "convert_temperature" (.required "value") (.required "from_unit")
      (.optional "to_unit" (unit "CELSIUS")) fun v source target =>
        outcome (convertTemperature v source target),
    keyword1 "get_status_info" (.required "status") fun status => outcome do
      return .dict [(.str "name", ← memberName status), (.str "value", ← memberValue status),
        (.str "description", .str (statusMeaning status))],
    keyword3 "create_task" (.required "name") mediumPriority pendingStatus
      fun name priority status => outcome do
        return .dict ((.str "name", name) :: (← priorityEntries priority) ++ (← statusEntries status)),
    keyword3 "log_message" (.required "message") infoLevel (.optional "color" .none)
      fun message level colour => do
        printLine (← outcome (logLine message level colour))
        return .none,
    keyword0 "get_all_statuses" (outcome do
      return .list (← (membersOf "Status").mapM memberName)),
    keyword0 "get_all_priorities" (outcome do
      return .list (← (membersOf "Priority").mapM memberName)),
    keyword1 "validate_status" (.required "status") fun status => outcome do
      return .bool (← isMemberOf "Status" status),
    keyword1 "get_status_by_value" (.required "value") fun v => return (statusOfValue? v).getD .none]

end KeywordDocs.Samples
