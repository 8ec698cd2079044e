import KeywordDocs.Calendar.Writing
import KeywordDocs.Json.Basic
import KeywordDocs.Text.Quoted

/-!
# Values of the Documented Language

Documented libraries are programs in a dynamic language, whose values are their defaults, enumeration members,
version marks and results.
-/

namespace KeywordDocs

inductive MemberKind where
  | plain
  | integer
  | text
  deriving DecidableEq

inductive Value where
  | none
  | ellipsis
  | bool (b : Bool)
  | int (n : Int)
  | float (x : Float)
  /-- A float that is not a number, told apart from others by which object it is. -/
  | nan (object : Nat)
  | complex (re im : Float)
  | str (s : String)
  | bytes (bs : List UInt8)
  | list (items : List Value)
  | tuple (items : List Value)
  | set (items : List Value)
  | dict (entries : List (Value × Value))
  | kind (name : String)
  | member (mode : MemberKind) (enumeration : String) (name : String) (value : Value)
  | moment (t : Moment)
  /-- Anything else: the name of its class and how it is shown. -/
  | object (kindName shown : String)
  deriving Inhabited

namespace Value

mutual

def ofJson : Json → Value
  | .null => .none
  | .bool b => .bool b
  | .int n => .int n
  | .float x => .float x
  | .str s => .str s
  | .arr items => .list (ofJsonItems items)
  | .obj members => .dict (ofJsonMembers members)

def ofJsonItems : List Json → List Value
  | [] => []
  | v :: rest => ofJson v :: ofJsonItems rest

def ofJsonMembers : List (String × Json) → List (Value × Value)
  | [] => []
  | (k, v) :: rest => (.str k, ofJson v) :: ofJsonMembers rest

end

def text? : Value → Option String
  | .str s => some s
  | _ => Option.none

def kindName : Value → String
  | .none => "NoneType"
  | .ellipsis => "ellipsis"
  | .bool _ => "bool"
  | .int _ => "int"
  | .float _ | .nan _ => "float"
  | .complex .. => "complex"
  | .str _ => "str"
  | .bytes _ => "bytes"
  | .list _ => "list"
  | .tuple _ => "tuple"
  | .set _ => "set"
  | .dict _ => "dict"
  | .kind _ => "type"
  | .member _ e _ _ => e
  | .moment _ => "datetime"
  | .object k _ => k

def isTruthy : Value → Bool
  | .none => false
  | .bool b => b
  | .int n => n ≠ 0
  | .float x => x != 0.0
  | .complex a b => a != 0.0 || b != 0.0
  | .str s => s ≠ ""
  | .bytes bs => !bs.isEmpty
  | .list items | .tuple items | .set items => !items.isEmpty
  | .dict entries => !entries.isEmpty
  | .member .integer _ _ (.int n) => n ≠ 0
  | .member .text _ _ (.str s) => s ≠ ""
  | _ => true

end Value

end KeywordDocs

namespace KeywordDocs

def Number.padded (width n : Nat) : String := String.ofList (Number.padZeros width (Number.digitsOf n))

namespace Moment

def iso (sep : String) (t : Moment) : String :=
  Number.padded 4 t.year ++ "-" ++ Number.padded 2 t.month ++ "-" ++ Number.padded 2 t.day ++ sep ++
    Number.padded 2 t.hour ++ ":" ++ Number.padded 2 t.minute ++ ":" ++ Number.padded 2 t.second ++
    (if t.micro = 0 then "" else "." ++ Number.padded 6 t.micro)

def literal (t : Moment) : String :=
  let time := if t.micro ≠ 0 then [t.hour, t.minute, t.second, t.micro]
    else if t.second ≠ 0 then [t.hour, t.minute, t.second] else [t.hour, t.minute]
  "datetime.datetime(" ++
    ", ".intercalate (([t.year, t.month, t.day] ++ time).map fun n : Nat => Number.ofInt n) ++ ")"

end Moment

namespace Value

def complexPart (x : Float) : String :=
  let s := (Number.ofFloat x).toList
  if ['.', '0'].isSuffixOf s then String.ofList (s.take (s.length - 2)) else String.ofList s

def complexLiteral (re im : Float) : String :=
  let signed := complexPart im
  if re.toBits = 0 then signed ++ "j"
  else
    let glue := if signed.startsWith "-" then "" else "+"
    "(" ++ complexPart re ++ glue ++ signed ++ "j)"

mutual

def literal : Value → String
  | .none => "None"
  | .ellipsis => "Ellipsis"
  | .bool b => if b then "True" else "False"
  | .int n => Number.ofInt n
  | .float x => Number.ofFloat x
  | .nan _ => "nan"
  | .complex re im => complexLiteral re im
  | .str s => Text.quote s
  | .bytes bs => Text.quoteBytes bs
  | .list items => "[" ++ literals items ++ "]"
  | .tuple [v] => "(" ++ literal v ++ ",)"
  | .tuple items => "(" ++ literals items ++ ")"
  | .set [] => "set()"
  | .set items => "\x7b" ++ literals items ++ "\x7d"
  | .dict entries => "\x7b" ++ entryLiterals entries ++ "\x7d"
  | .kind name => "<class '" ++ name ++ "'>"
  | .member _ e n v => "<" ++ e ++ "." ++ n ++ ": " ++ literal v ++ ">"
  | .moment t => t.literal
  | .object _ shown => shown

def literals : List Value → String
  | [] => ""
  | [v] => literal v
  | v :: rest => literal v ++ ", " ++ literals rest

def entryLiterals : List (Value × Value) → String
  | [] => ""
  | [(k, v)] => literal k ++ ": " ++ literal v
  | (k, v) :: rest => literal k ++ ": " ++ literal v ++ ", " ++ entryLiterals rest

end

def display : Value → String
  | .str s => s
  | .member .plain e n _ => e ++ "." ++ n
  | .member .integer _ _ (.int n) => Number.ofInt n
  | .member .text _ _ (.str s) => s
  | .moment t => t.iso " "
  | v => v.literal

end Value

def Json.display (j : Json) : String := (Value.ofJson j).display

end KeywordDocs

namespace KeywordDocs.Value

def described (v : Value) : Json := .obj [("type", .str v.kindName), ("repr", .str v.literal)]

mutual

def toJson : Value → Json
  | .none => .null
  | .bool b => .bool b
  | .int n => .int n
  | .float x => .float x
  | .nan _ => .float (0.0 / 0.0)
  | .str s => .str s
  | .list items => .arr (toJsonItems items)
  | .tuple items => .arr (toJsonItems items)
  | .set items => .arr (toJsonItems items)
  | .dict entries => .obj (toJsonEntries entries)
  | v => described v

def toJsonItems : List Value → List Json
  | [] => []
  | v :: rest => toJson v :: toJsonItems rest

def toJsonEntries : List (Value × Value) → List (String × Json)
  | [] => []
  | (k, v) :: rest => (k.display, toJson v) :: toJsonEntries rest

end

end KeywordDocs.Value
