import KeywordDocs.Number.Written
import KeywordDocs.Text.Case

/-!
# Dates and Moments

Days are counted from the first day of the year one, which is day one.
-/

namespace KeywordDocs

structure Moment where
  year : Nat
  month : Nat
  day : Nat
  hour : Nat
  minute : Nat
  second : Nat
  micro : Nat
  deriving DecidableEq

end KeywordDocs

namespace KeywordDocs.Calendar

variable (year month n day : Nat)

def weekdayNames : List String :=
  ["Monday", "Tuesday", "Wednesday", "Thursday", "Friday", "Saturday", "Sunday"]

def monthNames : List String :=
  ["January", "February", "March", "April", "May", "June", "July", "August", "September", "October",
    "November", "December"]

def abbreviated (name : String) : String := String.ofList (name.toList.take 3)

def weekdayName (weekday : Nat) : String := weekdayNames.getD weekday ""

def monthName : String := monthNames.getD (month - 1) ""

def isLeap : Bool := year % 4 = 0 && (year % 100 ≠ 0 || year % 400 = 0)

def daysInMonth : Nat :=
  if month = 2 then if isLeap year then 29 else 28
  else if [4, 6, 9, 11].contains month then 30
  else 31

def daysBeforeYear : Nat :=
  let y := year - 1
  y * 365 + y / 4 - y / 100 + y / 400

def daysBeforeMonth : Nat := (List.range (month - 1)).foldl (fun days m => days + daysInMonth year (m + 1)) 0

def dayNumber : Nat := daysBeforeYear year + daysBeforeMonth year month + day

def dayOfYear : Nat := daysBeforeMonth year month + day

def yearOf : Nat :=
  let guess := (n * 400 + 146096) / 146097
  if n ≤ daysBeforeYear guess then guess - 1
  else if daysBeforeYear (guess + 1) < n then guess + 1
  else guess

def monthFrom (year : Nat) : Nat → Nat → Nat → Nat × Nat
  | 0, month, n => (month, n)
  | left + 1, month, n =>
    if n ≤ daysInMonth year month then (month, n)
    else monthFrom year left (month + 1) (n - daysInMonth year month)

def ofDayNumber : Nat × Nat × Nat :=
  let year := yearOf n
  let (month, day) := monthFrom year 11 1 (n - daysBeforeYear year)
  (year, month, day)

def weekdayOf : Nat := (n + 6) % 7

def lastYear : Nat := 9999

def isDate : Bool :=
  1 ≤ year && year ≤ lastYear && 1 ≤ month && month ≤ 12 && 1 ≤ day && day ≤ daysInMonth year month

def microsPerDay : Nat := 86400000000

end KeywordDocs.Calendar

namespace KeywordDocs.Moment

open Calendar

variable (t : Moment)

def dayNumber : Nat := Calendar.dayNumber t.year t.month t.day

def weekday : Nat := weekdayOf t.dayNumber

def timeOfDay : Nat := ((t.hour * 60 + t.minute) * 60 + t.second) * 1000000 + t.micro

def micros : Int := t.dayNumber * microsPerDay + t.timeOfDay

def isValid : Bool :=
  isDate t.year t.month t.day && t.hour < 24 && t.minute < 60 && t.second < 60 && t.micro < 1000000

def ofMicros? (n : Int) : Option Moment :=
  if n < microsPerDay then none
  else
    let n := n.toNat
    let (year, month, day) := ofDayNumber (n / microsPerDay)
    let rest := n % microsPerDay
    let seconds := rest / 1000000
    if lastYear < year then none
    else some {
      year, month, day
      hour := seconds / 3600
      minute := seconds / 60 % 60
      second := seconds % 60
      micro := rest % 1000000 }

end KeywordDocs.Moment

namespace KeywordDocs.Calendar

open Number Text

inductive Filling where
  | none
  | blanks
  | zeros

def filled (usual : Filling) (asked : Option Filling) (width n : Nat) : String :=
  let digits := digitsOf n
  match asked.getD usual with
  | .none => String.ofList digits
  | .blanks => String.ofList (List.replicate (width - digits.length) ' ' ++ digits)
  | .zeros => String.ofList (padZeros width digits)

def clockHour (hour : Nat) : Nat :=
  if hour % 12 = 0 then 12 else hour % 12

def dayHalf (hour : Nat) : String :=
  if hour < 12 then "AM" else "PM"

def weekOfYear (t : Moment) (offset : Nat) : Nat :=
  (dayOfYear t.year t.month t.day + 6 - (t.weekday + 7 - offset) % 7) / 7

def weeksInYear (year : Nat) : Nat :=
  let first := weekdayOf (dayNumber year 1 1)
  if first = 3 || (first = 2 && isLeap year) then 53 else 52

def isoWeek (t : Moment) : Nat × Nat :=
  let week := (dayOfYear t.year t.month t.day + 9 - t.weekday) / 7
  if week = 0 then (t.year - 1, weeksInYear (t.year - 1))
  else if weeksInYear t.year < week then (t.year + 1, 1)
  else (t.year, week)

def numberField? (t : Moment) : Char → Option (Filling × Nat × Nat)
  | 'd' => some (.zeros, 2, t.day)
  | 'e' => some (.blanks, 2, t.day)
  | 'H' => some (.zeros, 2, t.hour)
  | 'I' => some (.zeros, 2, clockHour t.hour)
  | 'k' => some (.blanks, 2, t.hour)
  | 'l' => some (.blanks, 2, clockHour t.hour)
  | 'j' => some (.zeros, 3, dayOfYear t.year t.month t.day)
  | 'm' => some (.zeros, 2, t.month)
  | 'M' => some (.zeros, 2, t.minute)
  | 'S' => some (.zeros, 2, t.second)
  | 'y' => some (.zeros, 2, t.year % 100)
  | 'C' => some (.zeros, 2, t.year / 100)
  | 'Y' => some (.none, 4, t.year)
  | 'G' => some (.none, 4, (isoWeek t).1)
  | 'g' => some (.zeros, 2, (isoWeek t).1 % 100)
  | 'V' => some (.zeros, 2, (isoWeek t).2)
  | 'U' => some (.zeros, 2, weekOfYear t 6)
  | 'W' => some (.zeros, 2, weekOfYear t 0)
  | 'u' => some (.none, 1, t.weekday + 1)
  | 'w' => some (.none, 1, (t.weekday + 1) % 7)
  | _ => none

def textField? (t : Moment) : Char → Option String
  | 'a' => some (abbreviated (weekdayName t.weekday))
  | 'A' => some (weekdayName t.weekday)
  | 'b' | 'h' => some (abbreviated (monthName t.month))
  | 'B' => some (monthName t.month)
  | 'p' => some (dayHalf t.hour)
  | 'P' => some (lower (dayHalf t.hour))
  | 'f' => some (String.ofList (padZeros 6 (digitsOf t.micro)))
  | 'n' => some "\n"
  | 't' => some "\t"
  | 'z' | 'Z' => some ""
  | '%' => some "%"
  | _ => none

def shorthand? : Char → Option String
  | 'c' => some "%a %b %e %H:%M:%S %Y"
  | 'D' | 'x' => some "%m/%d/%y"
  | 'F' => some "%Y-%m-%d"
  | 'r' => some "%I:%M:%S %p"
  | 'R' => some "%H:%M"
  | 'T' | 'X' => some "%H:%M:%S"
  | _ => none

def fillingMark? : Char → Option Filling
  | '-' => some .none
  | '_' => some .blanks
  | '0' => some .zeros
  | _ => none

def field? (t : Moment) (asked : Option Filling) (letter : Char) : Option String :=
  match numberField? t letter with
  | some (usual, width, n) => some (filled usual asked width n)
  | none => textField? t letter

def writePlain (t : Moment) : List Char → List Char
  | '%' :: '^' :: c :: cs =>
    match field? t none c with
    | some s => (upper s).toList ++ writePlain t cs
    | none => '%' :: '^' :: c :: writePlain t cs
  | '%' :: m :: c :: cs =>
    match fillingMark? m, field? t (fillingMark? m) c with
    | some _, some s => s.toList ++ writePlain t cs
    | some _, none => '%' :: m :: c :: writePlain t cs
    | none, _ =>
      match field? t none m with
      | some s => s.toList ++ writePlain t (c :: cs)
      | none => '%' :: m :: writePlain t (c :: cs)
  | ['%', c] =>
    match field? t none c with
    | some s => s.toList
    | none => ['%', c]
  | c :: cs => c :: writePlain t cs
  | [] => []

def expandShorthands : List Char → List Char
  | '%' :: c :: cs =>
    match shorthand? c with
    | some s => s.toList ++ expandShorthands cs
    | none => '%' :: c :: expandShorthands cs
  | c :: cs => c :: expandShorthands cs
  | [] => []

end KeywordDocs.Calendar

def KeywordDocs.Moment.write (format : String) (t : Moment) : String :=
  String.ofList (KeywordDocs.Calendar.writePlain t
    (KeywordDocs.Calendar.expandShorthands format.toList))
