import KeywordDocs.Value.Format
import KeywordDocs.Value.Order

/-!
# Templates with Fields

A template is a text with fields in braces. A field names a value, can go on to parts of it, and can end
with how the value is written.
-/

namespace KeywordDocs

structure Field where
  name : List Char
  conversion : Option Char := none
  layout : List Char := []

def readFieldName : Bool → List Char → Except Fault (List Char × Option Char × List Char)
  | _, [] => .ok ([], none, [])
  | true, c :: cs => do
    let (name, ending, rest) ← readFieldName (c ≠ ']') cs
    return (c :: name, ending, rest)
  | false, c :: cs =>
    if c = '\x7b' then .error .badValue
    else if c = '\x7d' || c = ':' || c = '!' then .ok ([], some c, cs)
    else do
      let (name, ending, rest) ← readFieldName (c = '[') cs
      return (c :: name, ending, rest)

def readLayout : Nat → List Char → Except Fault (List Char × List Char)
  | _, [] => .error .badValue
  | depth, c :: cs =>
    if c = '\x7d' && depth = 0 then .ok ([], cs)
    else do
      let depth := if c = '\x7b' then depth + 1 else if c = '\x7d' then depth - 1 else depth
      let (layout, rest) ← readLayout depth cs
      return (c :: layout, rest)

def readField (cs : List Char) : Except Fault (Field × List Char) := do
  let (name, ending, rest) ← readFieldName false cs
  match ending with
  | some '\x7d' => return ({ name }, rest)
  | some ':' =>
    let (layout, rest) ← readLayout 0 rest
    return ({ name, layout }, rest)
  | some _ =>
    match rest with
    | conversion :: '\x7d' :: rest => return ({ name, conversion := some conversion }, rest)
    | conversion :: ':' :: rest =>
      let (layout, rest) ← readLayout 0 rest
      return ({ name, conversion := some conversion, layout }, rest)
    | _ => .error .badValue
  | none => .error .badValue

def indexedItem (items : List Value) (i : Nat) : Except Fault Value :=
  match items[i]? with
  | some v => .ok v
  | none => .error .outOfRange

def writtenItem (v : Value) (key : List Char) : Except Fault Value :=
  let isIndex := key.all Char.isDigit
  let index := Number.natOfDigits key
  match v with
  | .dict entries =>
    let wanted : Value := if isIndex then .int index else .str (String.ofList key)
    match entries.find? fun e => e.1.same wanted with
    | some e => .ok e.2
    | none => .error .missingKey
  | .list items | .tuple items => if isIndex then indexedItem items index else .error .wrongKind
  | .str s =>
    if isIndex then indexedItem (s.toList.map fun c => .str (String.singleton c)) index
    else .error .wrongKind
  | _ => .error .wrongKind

def writtenAttribute (v : Value) (key : String) : Except Fault Value :=
  match v, key with
  | .member _ _ name _, "name" => .ok (.str name)
  | .member _ _ _ value, "value" => .ok value
  | .moment t, "year" => .ok (.int t.year)
  | .moment t, "month" => .ok (.int t.month)
  | .moment t, "day" => .ok (.int t.day)
  | .moment t, "hour" => .ok (.int t.hour)
  | .moment t, "minute" => .ok (.int t.minute)
  | .moment t, "second" => .ok (.int t.second)
  | .moment t, "microsecond" => .ok (.int t.micro)
  | _, _ => .error .missingAttribute

def followParts : Nat → Value → List Char → Except Fault Value
  | 0, v, _ => .ok v
  | _, v, [] => .ok v
  | fuel + 1, v, '.' :: cs => do
    let (key, rest) := cs.span fun c => c ≠ '.' && c ≠ '['
    if key.isEmpty then .error .badValue
    followParts fuel (← writtenAttribute v (String.ofList key)) rest
  | fuel + 1, v, '[' :: cs => do
    match cs.span (· ≠ ']') with
    | (key, ']' :: rest) =>
      if key.isEmpty then .error .badValue
      followParts fuel (← writtenItem v key) rest
    | _ => .error .badValue
  | _, _, _ => .error .badValue

def lookupField (named : List (String × Value)) (name : List Char) : Except Fault Value := do
  let (first, rest) := name.span fun c => c ≠ '.' && c ≠ '['
  if first.all Char.isDigit then .error .outOfRange
  match named.lookup (String.ofList first) with
  | some v => followParts (rest.length + 1) v rest
  | none => .error .missingKey

def convertField (v : Value) : Option Char → Except Fault Value
  | none => .ok v
  | some 's' => .ok (.str v.display)
  | some 'r' | some 'a' => .ok (.str v.literal)
  | some _ => .error .badValue

def fillFields (named : List (String × Value)) : Nat → Nat → List Char → Except Fault (List Char)
  | 0, _, _ => .ok []
  | _, _, [] => .ok []
  | fuel + 1, depth, c :: cs =>
    if c = '\x7b' then
      match cs with
      | '\x7b' :: rest => do return '\x7b' :: (← fillFields named fuel depth rest)
      | [] => .error .badValue
      | _ => do
        let (field, rest) ← readField cs
        if depth = 0 then .error .badValue
        let v ← convertField (← lookupField named field.name) field.conversion
        let layout ← if field.layout.contains '\x7b'
          then fillFields named fuel (depth - 1) field.layout
          else .ok field.layout
        let text ← v.laidOut layout
        return text.toList ++ (← fillFields named fuel depth rest)
    else if c = '\x7d' then
      match cs with
      | '\x7d' :: rest => do return '\x7d' :: (← fillFields named fuel depth rest)
      | _ => .error .badValue
    else do return c :: (← fillFields named fuel depth cs)

def fillTemplate (template : String) (named : List (String × Value)) : Except Fault String := do
  return String.ofList (← fillFields named (template.length + 1) 2 template.toList)

end KeywordDocs
