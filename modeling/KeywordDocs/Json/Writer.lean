import KeywordDocs.Json.Basic
import KeywordDocs.Number.Written
import KeywordDocs.Text.Quoted

/-!
# Writing JSON

Two layouts: on one line with a space after commas and colons, and indented with one member or item a
line.
-/

namespace KeywordDocs.Json

open Text

def unitEscape (n : Nat) : List Char := '\\' :: 'u' :: hexDigits 4 n

def escapeChar (c : Char) : List Char :=
  if c = '"' then ['\\', '"']
  else if c = '\\' then ['\\', '\\']
  else if c = '\n' then ['\\', 'n']
  else if c = '\r' then ['\\', 'r']
  else if c = '\t' then ['\\', 't']
  else if c.toNat = 12 then ['\\', 'f']
  else if c.toNat = 8 then ['\\', 'b']
  else if 32 ≤ c.toNat ∧ c.toNat < 127 then [c]
  else if c.toNat < 65536 then unitEscape c.toNat
  else
    let n := c.toNat - 65536
    unitEscape (55296 + n / 1024) ++ unitEscape (56320 + n % 1024)

def quoted (s : String) : String := String.ofList ('"' :: s.toList.flatMap escapeChar ++ ['"'])

def number (x : Float) : String :=
  match Number.decompose x with
  | (_, .nan) => "NaN"
  | (false, .infinite) => "Infinity"
  | (true, .infinite) => "-Infinity"
  | _ => Number.ofFloat x

mutual

def compact : Json → String
  | .null => "null"
  | .bool b => if b then "true" else "false"
  | .int n => Number.ofInt n
  | .float x => number x
  | .str s => quoted s
  | .arr items => "[" ++ compactItems items ++ "]"
  | .obj members => "\x7b" ++ compactMembers members ++ "\x7d"

def compactItems : List Json → String
  | [] => ""
  | [v] => compact v
  | v :: rest => compact v ++ ", " ++ compactItems rest

def compactMembers : List (String × Json) → String
  | [] => ""
  | [(k, v)] => quoted k ++ ": " ++ compact v
  | (k, v) :: rest => quoted k ++ ": " ++ compact v ++ ", " ++ compactMembers rest

end

mutual

def indented (step : String) (margin : String) : Json → String
  | .arr [] => "[]"
  | .obj [] => "\x7b\x7d"
  | .arr items =>
    let inner := margin ++ step
    "[" ++ inner ++ indentedItems step inner items ++ margin ++ "]"
  | .obj members =>
    let inner := margin ++ step
    "\x7b" ++ inner ++ indentedMembers step inner members ++ margin ++ "\x7d"
  | .null => "null"
  | .bool b => if b then "true" else "false"
  | .int n => Number.ofInt n
  | .float x => number x
  | .str s => quoted s

def indentedItems (step : String) (margin : String) : List Json → String
  | [] => ""
  | [v] => indented step margin v
  | v :: rest => indented step margin v ++ "," ++ margin ++ indentedItems step margin rest

def indentedMembers (step : String) (margin : String) : List (String × Json) → String
  | [] => ""
  | [(k, v)] => quoted k ++ ": " ++ indented step margin v
  | (k, v) :: rest =>
    quoted k ++ ": " ++ indented step margin v ++ "," ++ margin ++ indentedMembers step margin rest

end

end KeywordDocs.Json
