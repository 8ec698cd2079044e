import KeywordDocs.Calendar.Reading
import KeywordDocs.Calendar.Span
import KeywordDocs.Samples.Basic
import KeywordDocs.Samples.Kinds

/-!
# A Library for Dates

Reading, writing, shifting and comparing dates that are given as texts in a format.
-/

namespace KeywordDocs.Samples

open Calendar

variable (format : Value) (name : String)

def formatOr : Playing Value := do
  if format.isTruthy then return format else stateField "_default_format"

def readMoment (text format : Value) : Except Fault Moment := do
  let text ← textArgument text
  Moment.read (← textArgument format) text

def writeMoment (t : Moment) : Except Fault Value := do
  return .str (t.write (← textArgument format))

def dateKeyword (f : Value → Moment → Except Fault Value) : SampleKeyword :=
  keyword2 name (.required "date_string") (.optional "format" .none) fun text format => do
    let format ← formatOr format
    outcome do f format (← readMoment text format)

def datePairKeyword (f : Moment → Moment → Bool) : SampleKeyword :=
  keyword3 name (.required "date1") (.required "date2") (.optional "format" .none)
    fun first second format => do
      let format ← formatOr format
      outcome do
        let t ← readMoment first format
        return .bool (f t (← readMoment second format))

def shiftKeyword (name parameter : String) (unit : Nat) : SampleKeyword :=
  keyword3 name (.required "date_string") (.required parameter) (.optional "format" .none)
    fun text count format => do
      let format ← formatOr format
      outcome do
        let t ← readMoment text format
        writeMoment format (← t.add (← Span.ofUnits unit count))

def spanIn (unit : Value) (s : Span) : Int :=
  let fullUnits (seconds : Float) := (Number.truncate? (s.seconds / seconds)).getD 0
  match unit with
  | .str "hours" => fullUnits 3600.0
  | .str "minutes" => fullUnits 60.0
  | .str "seconds" => (Number.truncate? s.seconds).getD 0
  | _ => s.days

def age (birth reference : Moment) : Int :=
  let years : Int := reference.year - birth.year
  let isBefore := reference.month < birth.month ||
    (reference.month = birth.month && reference.day < birth.day)
  if isBefore then years - 1 else years

def dates : SampleLibrary where
  initial := [("_default_format", .str "%Y-%m-%d %H:%M:%S")]
  keywords := [ keyword1 "get_current_datetime" (.optional "format" .none) fun format => do
      let format ← formatOr format
      outcome (writeMoment format (← get).now),
    keyword2 "parse_datetime" (.required "date_string") (.optional "format" .none)
      fun text format => do
        let format ← formatOr format
        outcome do return .moment (← readMoment text format),
    keyword2 "format_datetime" (.required "dt") (.optional "format" .none) fun t format => do
      let format ← formatOr format
      match t with
      | .moment t => outcome (writeMoment format t)
      | _ => throw .missingAttribute,
    shiftKeyword "add_days" "days" microsPerDay,
    shiftKeyword "add_hours" "hours" 3600000000,
    shiftKeyword "add_minutes" "minutes" 60000000,
    keyword4 "get_date_difference" (.required "date1") (.required "date2")
      (.optional "unit" (.str "days")) (.optional "format" .none) fun first second unit format => do
        let format ← formatOr format
        outcome do
          let t ← readMoment first format
          return .int (spanIn unit (t.distance (← readMoment second format))),
    datePairKeyword "is_date_before" fun t u => t.micros < u.micros,
    datePairKeyword "is_date_after" fun t u => u.micros < t.micros,
    keyword0 "get_timestamp" do return .float (← get).now.timestamp,
    keyword2 "timestamp_to_datetime" (.required "timestamp") (.optional "format" .none)
      fun seconds format => do
        let format ← formatOr format
        outcome do writeMoment format (← Moment.ofTimestamp seconds),
    dateKeyword "datetime_to_timestamp" fun _ t => return .float t.timestamp,
    dateKeyword "get_day_of_week" fun _ t => return .str (weekdayName t.weekday),
    dateKeyword "get_month_name" fun _ t => return .str (monthName t.month),
    dateKeyword "is_weekend" fun _ t => return .bool (5 ≤ t.weekday),
    dateKeyword "is_weekday" fun _ t => return .bool (t.weekday < 5),
    dateKeyword "get_start_of_day" fun format t =>
      writeMoment format { t with hour := 0, minute := 0, second := 0, micro := 0 },
    dateKeyword "get_end_of_day" fun format t =>
      writeMoment format { t with hour := 23, minute := 59, second := 59, micro := 999999 },
    keyword3 "get_age" (.required "birth_date") (.optional "reference_date" .none)
      (.optional "format" .none) fun birth reference format => do
        let format ← formatOr format
        let now := (← get).now
        outcome do
          let t ← readMoment birth format
          let u ← if reference.isTruthy then readMoment reference format else pure now
          return .int (age t u)]

end KeywordDocs.Samples
