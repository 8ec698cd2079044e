import KeywordDocs.Calendar.Span
import KeywordDocs.Digest.Hash
import KeywordDocs.Files.Disk

/-!
# Trials of Benchmarks

The values that benchmarks take and return, compared by what they hold: data of different kinds with the same
content stay apart only by the name of their kind.
-/

namespace KeywordDocs.Measure

open Digest

variable (s : String)

inductive Datum where
  | none
  | bool (b : Bool)
  | int (n : Int)
  | float (x : Float)
  | complex (re im : Float)
  | text (s : String)
  | bytes (kind : String) (bs : List UInt8)
  | items (kind : String) (ds : List Datum)
  | members (kind : String) (ds : List Datum)
  | entries (kind : String) (es : List (Datum × Datum))
  /-- An array of floating-point numbers: how it is stored, its lengths, its numbers in order. -/
  | floats (storage : String) (shape : List Nat) (xs : List Float)
  /-- An array of anything else: how it is stored, its lengths, its bytes. -/
  | cells (storage : String) (shape : List Nat) (bs : List UInt8)
  /-- A value that counts by how it is written. -/
  | written (kind shown : String)
  deriving Inhabited

namespace Datum

def kindName : Datum → String
  | .none => "NoneType"
  | .bool _ => "bool"
  | .int _ => "int"
  | .float _ => "float"
  | .complex .. => "complex"
  | .text _ => "str"
  | .bytes kind _ | .items kind _ | .members kind _ | .entries kind _ | .written kind _ => kind
  | .floats .. | .cells .. => "ndarray"

def call (name : String) (args : List Int) : String :=
  name ++ "(" ++ Text.join ", " (args.map Number.ofInt) ++ ")"

def ofDate (year month day : Int) : Datum := .written "date" (call "datetime.date" [year, month, day])

def ofTime (hour minute second micros : Int) : Datum :=
  .written "time" (call "datetime.time" ([hour, minute] ++
    if micros ≠ 0 then [second, micros] else if second ≠ 0 then [second] else []))

def ofSpan (s : Span) : Datum :=
  let seconds := s.micros.fdiv 1000000
  let parts := [("days", seconds.fdiv 86400), ("seconds", seconds.fmod 86400),
    ("microseconds", s.micros.fmod 1000000)].filter fun p => p.2 ≠ 0
  .written "timedelta" ("datetime.timedelta(" ++ (if parts.isEmpty then "0"
    else Text.join ", " (parts.map fun p => p.1 ++ "=" ++ Number.ofInt p.2)) ++ ")")

def ofFraction (n d : Int) : Datum :=
  let g : Int := Nat.gcd n.natAbs d.natAbs
  let s : Int := if d < 0 then -1 else 1
  .written "Fraction" (call "Fraction" [s * n / g, s * d / g])

def decimalText (digits : List Char) (exponent : Int) : List Char :=
  let leading := exponent + digits.length - 1
  if exponent ≤ 0 && -6 ≤ leading then
    let places := (-exponent).toNat
    let padded := Number.padZeros (places + 1) digits
    let whole := padded.take (padded.length - places)
    if places = 0 then whole else whole ++ '.' :: padded.drop (padded.length - places)
  else
    let mantissa := match digits with
      | c :: rest => if rest.isEmpty then [c] else c :: '.' :: rest
      | [] => []
    mantissa ++ 'E' :: (if 0 ≤ leading then '+' else '-') :: Number.digitsOf leading.natAbs

def ofDecimal : Datum :=
  let (sign, cs) := match s.toList with
    | '-' :: cs => (['-'], cs)
    | '+' :: cs => ([], cs)
    | cs => ([], cs)
  let (mantissa, rest) := cs.span fun c => c ≠ 'e' && c ≠ 'E'
  let exponent := (Number.readInt? (String.ofList (rest.drop 1))).getD 0
  let (whole, fraction) := mantissa.span (· ≠ '.')
  let fraction := fraction.drop 1
  let digits := (whole ++ fraction).dropWhile (· = '0')
  let digits := if digits.isEmpty then ['0'] else digits
  .written "Decimal" ("Decimal('" ++ String.ofList (sign ++
    decimalText digits (exponent - fraction.length)) ++ "')")

def ofPath : Datum :=
  .written "PurePosixPath" ("PurePosixPath(" ++ Text.quote (Files.Path.ofText s).toText ++ ")")

def ofIdentifier : Datum := .written "UUID" ("UUID('" ++ s ++ "')")

def floatOf : Json → Float
  | .float x => x
  | .int n => Float.ofInt n
  | _ => 0.0

def wordOf (width : Nat) : Json → Nat
  | .int n => (n % (Nat.pow 256 width : Nat)).toNat
  | .bool b => b.toNat
  | _ => 0

def shapeOf : Nat → Json → List Nat
  | depth + 1, .arr rows => rows.length :: shapeOf depth (rows.headD .null)
  | _, _ => []

def numbersIn : Nat → Json → List Json
  | depth + 1, .arr rows => rows.flatMap (numbersIn depth)
  | 0, .arr _ => []
  | _, n => [n]

def mostLevels : Nat := 32

def ofArray (storage : String) (data : Json) : Datum :=
  let shape := shapeOf mostLevels data
  let numbers := numbersIn mostLevels data
  match storage.toList with
  | _ :: 'f' :: width =>
    if width = ['4'] then
      .floats storage shape (numbers.map fun n => (floatOf n).toFloat32.toFloat)
    else .floats storage shape (numbers.map floatOf)
  | order :: _ :: width =>
    let width := Number.natOfDigits width
    let bytes := if order = '>' then Digest.highBytes width else Digest.lowBytes width
    .cells storage shape (numbers.flatMap fun n => bytes (wordOf width n))
  | _ => .cells storage shape []

def bare : Datum := .written "object" "<object object>"

end Datum

def bytesOf : List UInt8 := s.toUTF8.toList

def roughly (x : Float) : Float :=
  match Number.exactRatio? x with
  | none => x
  | some (isNegative, r) =>
    let (digits, e) := Number.significant 5 r
    let y := Number.readDecimal false (Number.natOfDigits digits) (e - 5)
    if isNegative && y != 0.0 then -y else y

def roughText (x : Float) : String := Number.ofFloat (roughly x)

def printOf (content : List UInt8) : String := hex (sha256 content)

def shapeText : List Nat → String
  | [n] => "(" ++ Number.ofInt n ++ ",)"
  | ns => "(" ++ Text.join ", " (ns.map fun (n : Nat) => Number.ofInt n) ++ ")"

def counted (mark : String) (parts : List (List UInt8)) : List UInt8 :=
  bytesOf (mark ++ Number.ofInt parts.length) ++ parts.flatten

mutual

def Datum.content : Datum → List UInt8
  | .none => bytesOf "None"
  | .bool b => bytesOf (if b then "True" else "False")
  | .int n => bytesOf (Number.ofInt n)
  | .float x => bytesOf (roughText x)
  | .complex re im => bytesOf ("c" ++ roughText re ++ roughText im)
  | .text s => bytesOf ("s" ++ s)
  | .bytes _ bs => bytesOf "s" ++ bs
  | .items _ ds => counted "L" (contents ds)
  | .members _ ds => counted "S" ((((contents ds).map printOf).mergeSort (· ≤ ·)).map bytesOf)
  | .entries _ es => counted "D" (((entryContents es).mergeSort fun a b => a.1 ≤ b.1).map (·.2))
  | .floats storage shape xs => bytesOf ("A" ++ shapeText shape ++ storage ++ String.join (xs.map roughText))
  | .cells storage shape bs => bytesOf ("A" ++ shapeText shape ++ storage) ++ sha256 bs
  | .written _ shown => bytesOf shown

def contents : List Datum → List (List UInt8)
  | [] => []
  | d :: rest => d.content :: contents rest

def entryContents : List (Datum × Datum) → List (String × List UInt8)
  | [] => []
  | (k, v) :: rest => (printOf k.content, k.content ++ v.content) :: entryContents rest

end

def Datum.fingerprint (d : Datum) : String := printOf d.content

abbrev Arguments := List (String × Datum)

structure Benchmark where
  name : String
  result : Arguments → Datum
  parameters : List (String × Arguments) := []
  failure : Option String := none

def usualLabel : String := "<default>"

def Benchmark.trial (b : Benchmark) : Json :=
  let inputs := Json.arr (b.parameters.flatMap fun p => p.2.map fun a => .str a.2.fingerprint)
  let found (kind : String) (repeats : List Json) (results : List (String × Json))
      (labels : List String) : Json :=
    let times := Json.arr (labels.map .str)
    .obj [("ret_type", .str kind), ("fp_stable", .arr repeats), ("fp_by_param", .obj results),
      ("param_fps", inputs), ("repo_tt_ms", times), ("repo_frac", times), ("ext_frac", times)]
  match b.failure with
  | some kind => found ("<" ++ kind ++ ">") [] [] []
  | none =>
    let usual := b.result []
    found usual.kindName (List.replicate 2 (.str usual.fingerprint))
      (b.parameters.map fun (label, args) => (label, .str (b.result args).fingerprint))
      ((usualLabel :: b.parameters.map (·.1)).mergeSort (· ≤ ·))

def Benchmark.share (b : Benchmark) : Float :=
  if b.failure.isSome then -1.0 else 0.0

end KeywordDocs.Measure
