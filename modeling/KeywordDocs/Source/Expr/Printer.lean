import KeywordDocs.Source.Stmt
import KeywordDocs.Text.Search

/-!
# Printing Expressions

The canonical text of an expression: one space around operators between operands, one after commas,
brackets only where precedence needs them.
-/

namespace KeywordDocs.Source

open Text

abbrev Strength := Nat

namespace Strength

def namedExpr : Strength := 1
def tuple : Strength := 2
def yield : Strength := 3
def test : Strength := 4
def or : Strength := 5
def and : Strength := 6
def not : Strength := 7
def comparison : Strength := 8
def bitOr : Strength := 9
def bitXor : Strength := 10
def bitAnd : Strength := 11
def shift : Strength := 12
def sum : Strength := 13
def product : Strength := 14
def factor : Strength := 15
def power : Strength := 16
def await : Strength := 17
def atom : Strength := 18

def next (s : Strength) : Strength := min (s + 1) atom

end Strength

def BinaryOp.sign : BinaryOp → String
  | .add => "+"
  | .sub => "-"
  | .mul => "*"
  | .matMul => "@"
  | .div => "/"
  | .mod => "%"
  | .pow => "**"
  | .shiftLeft => "<<"
  | .shiftRight => ">>"
  | .bitOr => "|"
  | .bitXor => "^"
  | .bitAnd => "&"
  | .floorDiv => "//"

def BinaryOp.strength : BinaryOp → Strength
  | .add | .sub => .sum
  | .mul | .matMul | .div | .mod | .floorDiv => .product
  | .pow => .power
  | .shiftLeft | .shiftRight => .shift
  | .bitOr => .bitOr
  | .bitXor => .bitXor
  | .bitAnd => .bitAnd

def UnaryOp.sign : UnaryOp → String
  | .invert => "~"
  | .not => "not "
  | .plus => "+"
  | .minus => "-"

def UnaryOp.strength : UnaryOp → Strength
  | .not => .not
  | _ => .factor

def LogicOp.sign : LogicOp → String
  | .and => " and "
  | .or => " or "

def LogicOp.strength : LogicOp → Strength
  | .and => .and
  | .or => .or

def CompareOp.sign : CompareOp → String
  | .equal => "=="
  | .unequal => "!="
  | .less => "<"
  | .lessEqual => "<="
  | .greater => ">"
  | .greaterEqual => ">="
  | .same => "is"
  | .notSame => "is not"
  | .member => "in"
  | .notMember => "not in"

def literalQuotes : List String := ["'", "\"", "\"\"\"", "'''"]

def shownChar (escapeLayout : Bool) (c : Char) : List Char :=
  if !escapeLayout && (c == '\n' || c == '\t') then [c] else quoteChar '\\' c

def fittedText (quotes : List String) (escapeLayout : Bool) (s : String) : String × List String :=
  let shown := String.ofList (s.toList.flatMap (shownChar escapeLayout))
  let possible := if contains "\n" shown then quotes.filter (·.length = 3) else quotes
  let possible := possible.filter fun q => !contains q shown
  match possible with
  | [] =>
    let literal := quote s
    let mark := take 1 literal
    let body := String.ofList ((literal.toList.drop 1).dropLast)
    (body, [(quotes.find? fun q => startsWith mark q).getD mark])
  | _ =>
    match shown.toList.getLast? with
    | none => (shown, possible)
    | some last =>
      let ends (q : String) : Bool := q.toList.head? == some last
      let ordered := possible.filter (fun q => !ends q) ++ possible.filter ends
      if (ordered.headD "") |> ends then
        (String.ofList (shown.toList.dropLast ++ ['\\', last]), ordered)
      else (shown, ordered)

def sparingLiteral (s : String) : String :=
  let (body, quotes) := fittedText literalQuotes false s
  let q := quotes.headD "'"
  q ++ body ++ q

def readableNumber (s : String) : String := replace "nan" "(1e309-1e309)" (replace "inf" "1e309" s)

def printValue (sparing : Bool) : Value → String
  | .float x => readableNumber (Value.float x).literal
  | .complex a b => readableNumber (Value.complex a b).literal
  | .str s => if sparing then sparingLiteral s else quote s
  | .ellipsis => "..."
  | v => v.literal

def bracketed (need : Bool) (s : String) : String :=
  if need then "(" ++ s ++ ")" else s

def tupleItems : List String → String
  | [s] => s ++ ","
  | items => join ", " items

def templateLiteral (parts : List (String × Bool)) : String :=
  let fit (state : Option (List String × List String)) (part : String × Bool) :=
    state.bind fun (done, quotes) =>
      let (body, serving) := fittedText quotes part.2 part.1
      if serving.any quotes.contains then some (done ++ [body], serving) else none
  match parts.foldl fit (some ([], literalQuotes)) with
  | some (bodies, quotes) =>
    let q := quotes.headD "'"
    q ++ join "" bodies ++ q
  | none =>
    let escaped (part : String × Bool) :=
      String.ofList (((quote ("\"" ++ part.1)).toList.drop 2).dropLast)
    "'''" ++ join "" (parts.map escaped) ++ "'''"

def fieldText (inner : String) (conversion : Option Char) (format : String) : Option String :=
  if contains "\\" inner then none
  else
    let gap := if startsWith "\x7b" inner then " " else ""
    let mark := match conversion with
      | some c => "!" ++ String.singleton c
      | none => ""
    some ("\x7b" ++ gap ++ inner ++ mark ++ format ++ "\x7d")

def printLambdaNames (names : LambdaNames) (defaults : List String)
  (keywordDefaults : List (Option String)) : String :=
  let positional := names.positionalOnly ++ names.positional
  let bare := positional.length - defaults.length
  let withDefaults := (positional.take bare) ++
    (List.zipWith (fun n d => n ++ "=" ++ d) (positional.drop bare) defaults)
  let only := withDefaults.take names.positionalOnly.length
  let slash := if only.isEmpty then [] else ["/"]
  let star := match names.rest with
    | some r => ["*" ++ r]
    | none => if names.keywordOnly.isEmpty then [] else ["*"]
  let keywords := List.zipWith (fun n d => match d with
    | some d => n ++ "=" ++ d
    | none => n) names.keywordOnly keywordDefaults
  let last := (names.named.map ("**" ++ ·)).toList
  join ", " (only ++ slash ++ withDefaults.drop names.positionalOnly.length ++ star ++ keywords ++ last)

namespace Expr

mutual

def printAt (sparing : Bool) (s : Strength) : Expr → Option String
  | .name id => some id
  | .constant v marked => some ((if marked then "u" else "") ++ printValue sparing v)
  | .attribute value attr => do
    let base ← printAt sparing .atom value
    let gap := match value with
      | .constant (.int _) _ | .constant (.bool _) _ => " "
      | _ => ""
    return base ++ gap ++ "." ++ attr
  | .subscript value index => do
    let base ← printAt sparing .atom value
    let place := match index with
      | .tuple _ => Strength.tuple
      | _ => Strength.test
    let inner ← printAt sparing place index
    return base ++ "[" ++ inner ++ "]"
  | .slice lower upper step => do
    let l ← printOptional sparing lower
    let u ← printOptional sparing upper
    let t ← printOptional sparing step
    return l.getD "" ++ ":" ++ u.getD "" ++ ((t.map (":" ++ ·)).getD "")
  | .call function arguments keywords => do
    let f ← printAt sparing .atom function
    let args ← printItems sparing .test arguments
    let kws ← printNamed sparing keywords
    return f ++ "(" ++ join ", " (args ++ kws) ++ ")"
  | .starred value => do return "*" ++ (← printAt sparing .bitOr value)
  | .binary op left right => do
    let own := op.strength
    let (l, r) := if op = .pow then (own.next, own) else (own, own.next)
    let lt ← printAt sparing l left
    let rt ← printAt sparing r right
    return bracketed (own < s) (lt ++ " " ++ op.sign ++ " " ++ rt)
  | .unary op operand => do
    let t ← printAt sparing op.strength operand
    return bracketed (op.strength < s) (op.sign ++ t)
  | .logic op operands => do
    let ts ← printTighter sparing op.strength.next operands
    return bracketed (op.strength < s) (join op.sign ts)
  | .comparison left others => do
    let l ← printAt sparing Strength.comparison.next left
    let ts ← printComparisons sparing others
    return bracketed (Strength.comparison < s) (l ++ join "" ts)
  | .conditional test thenValue elseValue => do
    let a ← printAt sparing Strength.test.next thenValue
    let t ← printAt sparing Strength.test.next test
    let b ← printAt sparing .test elseValue
    return bracketed (Strength.test < s) (a ++ " if " ++ t ++ " else " ++ b)
  | .lambda names defaults keywordDefaults body => do
    let ds ← printItems sparing .test defaults
    let ks ← printOptionals sparing keywordDefaults
    let b ← printAt sparing .test body
    let params := printLambdaNames names ds ks
    let head := if params.isEmpty then "lambda" else "lambda " ++ params
    return bracketed (Strength.test < s) (head ++ ": " ++ b)
  | .tuple items => do
    let ts ← printItems sparing .test items
    return bracketed (items.isEmpty || Strength.tuple < s) (tupleItems ts)
  | .list items => do return "[" ++ join ", " (← printItems sparing .test items) ++ "]"
  | .set items => do return "\x7b" ++ join ", " (← printItems sparing .test items) ++ "\x7d"
  | .dict entries => do return "\x7b" ++ join ", " (← printEntries sparing entries) ++ "\x7d"
  | .comprehension kind item clauses => do
    let body := (← printAt sparing .test item) ++ (← printClauses sparing clauses)
    return match kind with
      | .list => "[" ++ body ++ "]"
      | .set => "\x7b" ++ body ++ "\x7d"
      | .generator => "(" ++ body ++ ")"
  | .dictComprehension key value clauses => do
    let k ← printAt sparing .test key
    let v ← printAt sparing .test value
    return "\x7b" ++ k ++ ": " ++ v ++ (← printClauses sparing clauses) ++ "\x7d"
  | .named target value => do
    let v ← printAt sparing .atom value
    return bracketed (Strength.namedExpr < s) (target ++ " := " ++ v)
  | .await value => do
    return bracketed (Strength.await < s) ("await " ++ (← printAt sparing .atom value))
  | .yield none => some (bracketed (Strength.yield < s) "yield")
  | .yield (some e) => do
    return bracketed (Strength.yield < s) ("yield " ++ (← printAt sparing .atom e))
  | .yieldFrom value => do
    return bracketed (Strength.yield < s) ("yield from " ++ (← printAt sparing .atom value))
  | .template parts => do
    let ts ← printParts parts
    if sparing then return "f" ++ sparingLiteral (join "" (ts.map Prod.fst))
    else return "f" ++ templateLiteral ts
  | .field value conversion format => do
    let inner ← printAt true Strength.test.next value
    let spec ← printFormat format
    fieldText inner conversion spec

def printFormat : Option Expr → Option String
  | none => some ""
  | some (.template parts) => do return ":" ++ join "" ((← printParts parts).map Prod.fst)
  | some _ => none

def printParts : List Expr → Option (List (String × Bool))
  | [] => some []
  | .constant (.str t) _ :: rest => do
    let more ← printParts rest
    return (replace "\x7d" "\x7d\x7d" (replace "\x7b" "\x7b\x7b" t), true) :: more
  | .field value conversion format :: rest => do
    let inner ← printAt true Strength.test.next value
    let spec ← printFormat format
    let t ← fieldText inner conversion spec
    let more ← printParts rest
    return (t, false) :: more
  | _ :: _ => none

def printItems (sparing : Bool) (s : Strength) : List Expr → Option (List String)
  | [] => some []
  | e :: rest => do
    let t ← printAt sparing s e
    return t :: (← printItems sparing s rest)

def printTighter (sparing : Bool) (s : Strength) : List Expr → Option (List String)
  | [] => some []
  | e :: rest => do
    let t ← printAt sparing s e
    return t :: (← printTighter sparing s.next rest)

def printOptional (sparing : Bool) : Option Expr → Option (Option String)
  | none => some none
  | some e => do return some (← printAt sparing .test e)

def printOptionals (sparing : Bool) : List (Option Expr) → Option (List (Option String))
  | [] => some []
  | none :: rest => do return none :: (← printOptionals sparing rest)
  | some e :: rest => do
    let t ← printAt sparing .test e
    return some t :: (← printOptionals sparing rest)

def printNamed (sparing : Bool) : List (Option String × Expr) → Option (List String)
  | [] => some []
  | (label, e) :: rest => do
    let t ← printAt sparing .test e
    let head := match label with
      | some n => n ++ "="
      | none => "**"
    return (head ++ t) :: (← printNamed sparing rest)

def printEntries (sparing : Bool) : List (Option Expr × Expr) → Option (List String)
  | [] => some []
  | (some k, v) :: rest => do
    let kt ← printAt sparing .test k
    let vt ← printAt sparing .test v
    return (kt ++ ": " ++ vt) :: (← printEntries sparing rest)
  | (none, v) :: rest => do
    let vt ← printAt sparing .bitOr v
    return ("**" ++ vt) :: (← printEntries sparing rest)

def printComparisons (sparing : Bool) : List (CompareOp × Expr) → Option (List String)
  | [] => some []
  | (op, e) :: rest => do
    let t ← printAt sparing Strength.comparison.next e
    return (" " ++ op.sign ++ " " ++ t) :: (← printComparisons sparing rest)

def printClauses (sparing : Bool) : List Clause → Option String
  | [] => some ""
  | .over isAsync target source conditions :: rest => do
    let t ← printAt sparing .tuple target
    let src ← printAt sparing Strength.test.next source
    let cs ← printItems sparing Strength.test.next conditions
    let head := if isAsync then " async for " else " for "
    let conds := join "" (cs.map (" if " ++ ·))
    return head ++ t ++ " in " ++ src ++ conds ++ (← printClauses sparing rest)

end

def print (e : Expr) : Option String := printAt false .test e

end Expr

end KeywordDocs.Source
