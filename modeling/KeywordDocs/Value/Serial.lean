import KeywordDocs.Json.Writer
import KeywordDocs.Value.Order

/-!
# Values in a JSON Document

The JSON form of values that have one without loss of meaning: numbers, texts, sequences and
dictionaries.
-/

namespace KeywordDocs.Value

def serialKey : Value → Except Fault String
  | .str s => .ok s
  | .none => .ok "null"
  | .bool b => .ok (if b then "true" else "false")
  | .int n => .ok (Number.ofInt n)
  | .float x => .ok (Json.number x)
  | .nan _ => .ok "NaN"
  | .member .text _ _ (.str s) => .ok s
  | .member .integer _ _ (.int n) => .ok (Number.ofInt n)
  | _ => .error .wrongKind

def insertMember (key : Value) (v : Json) : List (Value × Json) → Except Fault (List (Value × Json))
  | [] => .ok [(key, v)]
  | (k, w) :: rest => do
    if ← less key k then return (key, v) :: (k, w) :: rest
    return (k, w) :: (← insertMember key v rest)

def sortMembers (members : List (Value × Json)) : Except Fault (List (Value × Json)) :=
  members.foldlM (fun sorted (k, v) => insertMember k v sorted) []

mutual

def serial (sorts : Bool) : Value → Except Fault Json
  | .none => .ok .null
  | .bool b => .ok (.bool b)
  | .int n => .ok (.int n)
  | .float x => .ok (.float x)
  | .nan _ => .ok (.float (0.0 / 0.0))
  | .str s => .ok (.str s)
  | .list items => (serialItems sorts items).map .arr
  | .tuple items => (serialItems sorts items).map .arr
  | .dict entries => do
    let members ← serialEntries sorts entries
    let ordered ← if sorts then sortMembers members else pure members
    return .obj (← ordered.mapM fun (k, v) => do return (← k.serialKey, v))
  | .member .text _ _ (.str s) => .ok (.str s)
  | .member .integer _ _ (.int n) => .ok (.int n)
  | _ => .error .wrongKind

def serialItems (sorts : Bool) : List Value → Except Fault (List Json)
  | [] => .ok []
  | v :: rest => do return (← serial sorts v) :: (← serialItems sorts rest)

def serialEntries (sorts : Bool) : List (Value × Value) → Except Fault (List (Value × Json))
  | [] => .ok []
  | (k, v) :: rest => do return (k, ← serial sorts v) :: (← serialEntries sorts rest)

end

abbrev Piece := Except Fault String

def comma (margin : Option String) : String :=
  match margin with
  | some m => "," ++ m
  | Option.none => ", "

mutual

def pieces (step : String) (margin : Option String) : Value → List Piece
  | .none => [.ok "null"]
  | .bool b => [.ok (if b then "true" else "false")]
  | .int n => [.ok (Number.ofInt n)]
  | .float x => [.ok (Json.number x)]
  | .nan _ => [.ok "NaN"]
  | .str s => [.ok (Json.quoted s)]
  | .list [] => [.ok "[]"]
  | .tuple [] => [.ok "[]"]
  | .dict [] => [.ok "\x7b\x7d"]
  | .list items =>
    let inner := margin.map (· ++ step)
    .ok ("[" ++ inner.getD "") :: itemPieces step inner items ++ [.ok (margin.getD "" ++ "]")]
  | .tuple items =>
    let inner := margin.map (· ++ step)
    .ok ("[" ++ inner.getD "") :: itemPieces step inner items ++ [.ok (margin.getD "" ++ "]")]
  | .dict entries =>
    let inner := margin.map (· ++ step)
    .ok ("\x7b" ++ inner.getD "") :: entryPieces step inner entries ++
      [.ok (margin.getD "" ++ "\x7d")]
  | .member .text _ _ (.str s) => [.ok (Json.quoted s)]
  | .member .integer _ _ (.int n) => [.ok (Number.ofInt n)]
  | _ => [.error .wrongKind]

def itemPieces (step : String) (margin : Option String) : List Value → List Piece
  | [] => []
  | [v] => pieces step margin v
  | v :: rest => pieces step margin v ++ .ok (comma margin) :: itemPieces step margin rest

def entryPieces (step : String) (margin : Option String) : List (Value × Value) → List Piece
  | [] => []
  | [(k, v)] => (k.serialKey.map fun s => Json.quoted s ++ ": ") :: pieces step margin v
  | (k, v) :: rest =>
    (k.serialKey.map fun s => Json.quoted s ++ ": ") :: pieces step margin v ++
      .ok (comma margin) :: entryPieces step margin rest

end

def written : List Piece → String × Option Fault
  | [] => ("", Option.none)
  | .ok s :: rest => ((s ++ (written rest).1), (written rest).2)
  | .error f :: _ => ("", some f)

end KeywordDocs.Value
