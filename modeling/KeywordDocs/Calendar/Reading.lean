import KeywordDocs.Calendar.Writing
import KeywordDocs.Pattern.Reader

/-!
# Reading Moments

A format is turned into a pattern with one group for each letter after a percent sign; what the groups
match is read from left to right, and a later letter overrules an earlier one.
-/

namespace KeywordDocs.Calendar

open Text

def namesPattern (names : List String) : String := join "|" (names.mergeSort fun a b => b.length ≤ a.length)

def letterPattern? : Char → Option String
  | 'd' => some "3[0-1]|[1-2]\\d|0[1-9]|[1-9]| [1-9]"
  | 'f' => some "[0-9]\x7b1,6\x7d"
  | 'H' => some "2[0-3]|[0-1]\\d|\\d"
  | 'I' | 'm' => some "1[0-2]|0[1-9]|[1-9]"
  | 'G' | 'Y' => some "\\d\\d\\d\\d"
  | 'j' => some
      "36[0-6]|3[0-5]\\d|[1-2]\\d\\d|0[1-9]\\d|00[1-9]|[1-9]\\d|0[1-9]|[1-9]"
  | 'M' => some "[0-5]\\d|\\d"
  | 'S' => some "6[0-1]|[0-5]\\d|\\d"
  | 'U' | 'W' => some "5[0-3]|[0-4]\\d|\\d"
  | 'w' => some "[0-6]"
  | 'u' => some "[1-7]"
  | 'V' => some "5[0-3]|0[1-9]|[1-4]\\d|\\d"
  | 'y' => some "\\d\\d"
  | 'A' => some (namesPattern weekdayNames)
  | 'a' => some (namesPattern (weekdayNames.map abbreviated))
  | 'B' => some (namesPattern monthNames)
  | 'b' => some (namesPattern (monthNames.map abbreviated))
  | 'p' => some "am|pm"
  | 'Z' => some "utc|gmt"
  | _ => none

def readingShorthand? : Char → Option String
  | 'c' => some "%a %b %d %H:%M:%S %Y"
  | 'x' => some "%m/%d/%y"
  | 'X' => some "%H:%M:%S"
  | _ => none

def isPatternSign (c : Char) : Bool :=
  ['\\', '.', '^', '$', '*', '+', '?', '(', ')', '\x7b', '\x7d', '[', ']', '|'].contains c

def plainPattern : List Char → Except Fault (List Char × List Char)
  | [] => .ok ([], [])
  | '%' :: '%' :: cs => do
    let (p, letters) ← plainPattern cs
    return ('%' :: p, letters)
  | '%' :: c :: cs =>
    match letterPattern? c with
    | none => .error .badValue
    | some field => do
      let (p, letters) ← plainPattern cs
      if letters.contains c then .error .badPattern
      return ('(' :: field.toList ++ ')' :: p, c :: letters)
  | ['%'] => .error .badValue
  | c :: cs => do
    let (p, letters) ← plainPattern cs
    if isBlank c then
      if (cs.head?.map isBlank).getD false then return (p, letters)
      return ('\\' :: 's' :: '+' :: p, letters)
    else if isPatternSign c then return ('\\' :: c :: p, letters)
    else return (c :: p, letters)

def expandReading : List Char → List Char
  | '%' :: c :: cs =>
    match readingShorthand? c with
    | some s => s.toList ++ expandReading cs
    | none => '%' :: c :: expandReading cs
  | c :: cs => c :: expandReading cs
  | [] => []

def formatPattern (format : String) : Except Fault (Matcher × List Char) := do
  let (p, letters) ← plainPattern (expandReading format.toList)
  return (← Matcher.read (String.ofList p) true, letters)

structure Reading where
  year : Option Nat := none
  month : Nat := 1
  day : Nat := 1
  hour : Nat := 0
  minute : Nat := 0
  second : Nat := 0
  micro : Nat := 0
  weekday : Option Nat := none
  dayOfYear : Option Nat := none
  week : Option (Nat × Bool) := none
  isoYear : Option Nat := none
  isoWeek : Option Nat := none

def placeOf (names : List String) (name : List Char) : Nat :=
  (names.map lower).idxOf (lower (String.ofList name))

def digitsValue (cs : List Char) : Nat := ((Number.readInt? (String.ofList cs)).getD 0).toNat

def fullYear (n : Nat) : Nat :=
  if n ≤ 68 then n + 2000 else n + 1900

def hourOfDay (hour : Nat) (half : Option (List Char)) : Nat :=
  if half.map (fun h => lower (String.ofList h)) = some "pm" then
    if hour = 12 then 12 else hour + 12
  else if hour = 12 then 0 else hour

def Reading.take (half : Option (List Char)) (r : Reading) (letter : Char) (cs : List Char) :
  Reading :=
  let n := digitsValue cs
  match letter with
  | 'y' => { r with year := some (fullYear n) }
  | 'Y' => { r with year := some n }
  | 'G' => { r with isoYear := some n }
  | 'm' => { r with month := n }
  | 'B' => { r with month := placeOf monthNames cs + 1 }
  | 'b' => { r with month := placeOf (monthNames.map abbreviated) cs + 1 }
  | 'd' => { r with day := n }
  | 'H' => { r with hour := n }
  | 'I' => { r with hour := hourOfDay n half }
  | 'M' => { r with minute := n }
  | 'S' => { r with second := n }
  | 'f' => { r with micro := digitsValue (cs ++ List.replicate (6 - cs.length) '0') }
  | 'A' => { r with weekday := some (placeOf weekdayNames cs) }
  | 'a' => { r with weekday := some (placeOf (weekdayNames.map abbreviated) cs) }
  | 'w' => { r with weekday := some ((n + 6) % 7) }
  | 'u' => { r with weekday := some (n - 1) }
  | 'j' => { r with dayOfYear := some n }
  | 'U' => { r with week := some (n, false) }
  | 'W' => { r with week := some (n, true) }
  | 'V' => { r with isoWeek := some n }
  | _ => r

def dayOfWeek (year week weekday : Nat) (startsMonday : Bool) : Int :=
  let first := weekdayOf (dayNumber year 1 1)
  let (first, weekday) := if startsMonday then (first, weekday)
    else ((first + 1) % 7, (weekday + 1) % 7)
  if week = 0 then 1 + weekday - first
  else 1 + ((7 - first) % 7 : Nat) + 7 * (week - 1) + weekday

def dateOfDay (year : Nat) (n : Int) : Except Fault (Nat × Nat × Nat) :=
  if year < 1 || lastYear < year then .error .badValue
  else
    let number := (daysBeforeYear year : Int) + n
    if number < 1 || (daysBeforeYear (lastYear + 1) : Int) < number then .error .badValue
    else .ok (ofDayNumber number.toNat)

def Reading.date (r : Reading) : Except Fault (Nat × Nat × Nat) :=
  let year := r.year.getD (if r.month = 2 && r.day = 29 then 1904 else 1900)
  match r.dayOfYear, r.weekday, r.week, r.isoYear, r.isoWeek with
  | some n, _, _, none, none => dateOfDay year n
  | none, some weekday, some (week, startsMonday), none, none =>
    dateOfDay year (dayOfWeek year week weekday startsMonday)
  | none, some weekday, none, some isoYear, some isoWeek =>
    -- The fourth of January is always in the first week.
    dateOfDay isoYear ((isoWeek * 7 + weekday + 1 : Nat) -
      ((weekdayOf (dayNumber isoYear 1 4) + 4 : Nat) : Int))
  | none, some weekday, some (week, startsMonday), some _, some _ =>
    dateOfDay year (dayOfWeek year week weekday startsMonday)
  | none, _, _, none, none =>
    if !isDate year r.month r.day then .error .badValue
    else .ok (r.year.getD 1900, r.month, r.day)
  | _, _, _, _, _ => .error .badValue

def Reading.moment (r : Reading) : Except Fault Moment := do
  let (year, month, day) ← r.date
  let t : Moment := {
    year, month, day, hour := r.hour, minute := r.minute, second := r.second, micro := r.micro }
  if t.isValid then return t else .error .badValue

end KeywordDocs.Calendar

namespace KeywordDocs

open Calendar

def Moment.read (format text : String) : Except Fault Moment := do
  let (m, letters) ← formatPattern format
  match m.matchStart text with
  | none => .error .badValue
  | some f =>
    if !f.after.rest.isEmpty then .error .badValue
    let fields := letters.zip (f.groups.map (·.getD []))
    let half := fields.lookup 'p'
    (fields.foldl (fun r (letter, cs) => r.take half letter cs) ({} : Reading)).moment

end KeywordDocs
