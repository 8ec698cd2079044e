import KeywordDocs.Source.Stmt
import KeywordDocs.Source.Token.Lexer
import KeywordDocs.Source.Token.Template

/-!
# Parsing Expressions

The grammar of expressions. Each rule is a function of the parser for the rules that can nest; `Expr.parse`
ties them together, with a count that bounds the nesting.
-/

namespace KeywordDocs.Source

open Source.Parser

inductive Rule where
  | expression
  | disjunction
  | inversion
  | operation
  | factor

def operatorGroups : List (List (String × BinaryOp)) :=
  [[("|", .bitOr)], [("^", .bitXor)], [("&", .bitAnd)],
   [("<<", .shiftLeft), (">>", .shiftRight)], [("+", .add), ("-", .sub)],
   [("*", .mul), ("@", .matMul), ("/", .div), ("%", .mod), ("//", .floorDiv)]]

def signValue? {α : Type} (table : List (String × α)) : Token → Option α
  | .mark m => table.lookup m
  | .word w => table.lookup w
  | _ => none

def joinedLeft (n : Nat) (group : List (String × BinaryOp)) (operand : Parser Expr) :
  Parser Expr := do
  let first ← operand
  foldFor (fun left => do
    match signValue? group (← peek) with
    | none => return none
    | some op =>
      advance
      return some (.binary op left (← operand))) n first

def operatorChain (n : Nat) (factor : Parser Expr) : Parser Expr := operatorGroups.foldr (joinedLeft n) factor

def startsExpression : Parser Bool := do
  match ← peek with
  | .number _ | .literal _ => return true
  | .word w => return !isReserved w || ["None", "True", "False", "not", "lambda", "await"].contains w
  | .mark m => return ["(", "[", "\x7b", "-", "+", "~", "...", "*"].contains m
  | _ => return false

variable (n : Nat) (self : Rule → Parser Expr)

def namedExpression : Parser Expr := do
  if (← seesIdentifier) && isSign ":=" (← peekSecond) then
    let target ← identifier
    eat ":="
    return .named target (← self .expression)
  else
    let e ← self .expression
    if ← sees ":=" then miss else return e

def starredOperand : Parser Expr := do
  eat "*"
  return .starred (← self .operation)

def starExpression : Parser Expr := do
  if ← sees "*" then starredOperand self else self .expression

def starNamedExpression : Parser Expr := do
  if ← sees "*" then starredOperand self else namedExpression self

def tupled (n : Nat) (item : Parser Expr) : Parser Expr := do
  let first ← item
  if ← sees "," then
    let rest ← commaTail startsExpression item n
    return .tuple (first :: rest)
  else return first

def starExpressions : Parser Expr := tupled n (starExpression self)

def yieldExpression : Parser Expr := do
  eat "yield"
  if ← eat? "from" then return .yieldFrom (← self .expression)
  else if ← startsExpression then return .yield (some (← starExpressions n self))
  else return .yield none

def targets : Parser Expr := do
  let e ← tupled n (do if ← sees "*" then starredOperand self else self .operation)
  if e.isTarget then return e else miss

def clauses : Parser (List Clause) :=
  repeatFor (do
    let isAsync ← eat? "async"
    if !isAsync && !(← sees "for") then return none
    eat "for"
    let target ← targets n self
    eat "in"
    let source ← self .disjunction
    let conditions ← repeatFor (do
      if ← eat? "if" then return some (← self .disjunction) else return none) n
    return some (Clause.over isAsync target source conditions)) n

def seesClauses : Parser Bool := do
  return (← sees "for") || (← sees "async")

def roundBrackets : Parser Expr := do
  eat "("
  if ← eat? ")" then return .tuple []
  if ← sees "yield" then
    let e ← yieldExpression n self
    eat ")"
    return e
  let first ← starNamedExpression self
  let e ← match first with
    | .starred _ =>
      if ← sees "," then pure first else miss
    | _ => pure first
  if ← seesClauses then
    let cs ← clauses n self
    eat ")"
    return .comprehension .generator e cs
  if ← sees "," then
    let rest ← commaTail startsExpression (starNamedExpression self) n
    eat ")"
    return .tuple (e :: rest)
  eat ")"
  return e

def squareBrackets : Parser Expr := do
  eat "["
  if ← eat? "]" then return .list []
  let first ← starNamedExpression self
  if ← seesClauses then
    match first with
    | .starred _ => miss
    | _ =>
      let cs ← clauses n self
      eat "]"
      return .comprehension .list first cs
  let rest ← commaTail startsExpression (starNamedExpression self) n
  eat "]"
  return .list (first :: rest)

def dictEntry : Parser (Option Expr × Expr) := do
  if ← eat? "**" then return (none, ← self .operation)
  let key ← self .expression
  eat ":"
  return (some key, ← self .expression)

def moreEntries : Parser (List (Option Expr × Expr)) := do
  let rest ← commaTail (do return (← startsExpression) || (← sees "**")) (dictEntry self) n
  eat "\x7d"
  return rest

def braces : Parser Expr := do
  eat "\x7b"
  if ← eat? "\x7d" then return .dict []
  if ← sees "**" then
    let first ← dictEntry self
    return .dict (first :: (← moreEntries n self))
  let first ← starNamedExpression self
  if ← eat? ":" then
    match first with
    | .starred _ | .named .. => miss
    | _ =>
      let value ← self .expression
      if ← seesClauses then
        let cs ← clauses n self
        eat "\x7d"
        return .dictComprehension first value cs
      return .dict ((some first, value) :: (← moreEntries n self))
  if ← seesClauses then
    match first with
    | .starred _ => miss
    | _ =>
      let cs ← clauses n self
      eat "\x7d"
      return .comprehension .set first cs
  let rest ← commaTail startsExpression (starNamedExpression self) n
  eat "\x7d"
  return .set (first :: rest)

def within {α : Type} (ts : List Lexeme) (p : Parser α) : Parser α := do
  match p ts with
  | .ok (a, rest) =>
    match rest with
    | ⟨.newline, _⟩ :: ⟨.finish, _⟩ :: _ => return a
    | _ => miss
  | .error _ => miss

mutual

def fieldParts : List TemplatePart → Parser (List Expr)
  | [] => return []
  | .plain s :: rest => do
    let more ← fieldParts rest
    return .constant (.str s) false :: more
  | .field source label conversion format :: rest => do
    let value ← within (tokens ('(' :: source.toList ++ [')'])) (roundBrackets n self)
    let spec ← formatPart format
    let more ← fieldParts rest
    let shown := (label.map fun l => Expr.constant (.str l) false).toList
    return shown ++ .field value conversion spec :: more

def formatPart : Option (List TemplatePart) → Parser (Option Expr)
  | none => return none
  | some parts => do return some (.template (← fieldParts parts))

end

def mergePlain : List Expr → List Expr
  | .constant (.str a) m :: rest =>
    match mergePlain rest with
    | .constant (.str b) _ :: more => .constant (.str (a ++ b)) m :: more
    | more => .constant (.str a) m :: more
  | e :: rest => e :: mergePlain rest
  | [] => []

def adjacentLiterals (n : Nat) : Parser (List TextLiteral) :=
  repeatFor (do
    match ← peek with
    | .literal t =>
      advance
      return some t
    | _ => return none) n

def allBytes? : List TextLiteral → Option (List UInt8)
  | [] => some []
  | .bytes bs :: rest => (allBytes? rest).map (bs ++ ·)
  | _ :: _ => none

def textParts : List TextLiteral → Parser (List Expr)
  | [] => return []
  | .text s _ :: rest => do
    let more ← textParts rest
    return (if s.isEmpty then more else .constant (.str s) false :: more)
  | .template raw body :: rest => do
    match templateParts raw body with
    | some parts =>
      let here ← fieldParts n self parts
      let more ← textParts rest
      return here ++ more
    | none => miss
  | .bytes _ :: _ => miss

def isTemplate : TextLiteral → Bool
  | .template .. => true
  | _ => false

def plainText : TextLiteral → String
  | .text s _ => s
  | _ => ""

def literalExpression : Parser Expr := do
  let ts ← adjacentLiterals n
  match allBytes? ts with
  | some bs => return .constant (.bytes bs) false
  | none =>
    let parts ← textParts n self ts
    if ts.any isTemplate then return .template (mergePlain parts)
    else
      let marked := match ts with
        | .text _ m :: _ => m
        | _ => false
      return .constant (.str (String.join (ts.map plainText))) marked

def atom : Parser Expr := do
  match ← peek with
  | .number v =>
    advance
    return .constant v false
  | .literal _ => literalExpression n self
  | .mark "(" => roundBrackets n self
  | .mark "[" => squareBrackets n self
  | .mark "\x7b" => braces n self
  | .mark "..." =>
    advance
    return .constant .ellipsis false
  | .word "None" =>
    advance
    return .constant .none false
  | .word "True" =>
    advance
    return .constant (.bool true) false
  | .word "False" =>
    advance
    return .constant (.bool false) false
  | _ => return .name (← identifier)

structure Arguments where
  positional : List Expr := []
  named : List (Option String × Expr) := []
  unpacked : Bool := false

def argument (so : Arguments) : Parser Arguments := do
  if ← eat? "**" then
    let e ← self .expression
    return { so with named := so.named ++ [(none, e)], unpacked := true }
  if ← sees "*" then
    if so.unpacked then miss
    eat "*"
    let e ← self .expression
    return { so with positional := so.positional ++ [.starred e] }
  if (← seesIdentifier) && isSign "=" (← peekSecond) then
    let name ← identifier
    eat "="
    let e ← self .expression
    return { so with named := so.named ++ [(some name, e)] }
  if !so.named.isEmpty then miss
  let e ← namedExpression self
  return { so with positional := so.positional ++ [e] }

def arguments : Parser Arguments := do
  if ← eat? ")" then return {}
  let first ← argument self {}
  if ← seesClauses then
    match first.positional with
    | [.starred _] | [] => miss
    | e :: _ =>
      let cs ← clauses n self
      eat ")"
      return { positional := [.comprehension .generator e cs] }
  let all ← foldFor (fun so => do
    if !(← sees ",") then return none
    advance
    if ← sees ")" then return none
    return some (← argument self so)) n first
  eat ")"
  return all

def slicePart : Parser (Option Expr) := do
  if (← sees ":") || (← sees "]") || (← sees ",") then return none
  return some (← self .expression)

def sliceItem : Parser Expr := do
  if ← sees "*" then return ← starredOperand self
  let lower ← if ← sees ":" then pure none else some <$> namedExpression self
  if ← eat? ":" then
    match lower with
    | some (.named ..) => miss
    | _ =>
      let upper ← slicePart self
      let step ← if ← eat? ":" then slicePart self else pure none
      return .slice lower upper step
  match lower with
  | some e => return e
  | none => miss

def indices : Parser Expr := do
  let first ← sliceItem self
  let index ← if ← sees "," then
      let rest ← commaTail (do return !(← sees "]")) (sliceItem self) n
      pure (Expr.tuple (first :: rest))
    else match first with
      | .starred _ => pure (.tuple [first])
      | _ => pure first
  eat "]"
  return index

def primary : Parser Expr := do
  let first ← atom n self
  foldFor (fun e => do
    if ← eat? "." then return some (.attribute e (← identifier))
    else if ← eat? "(" then
      let args ← arguments n self
      return some (.call e args.positional args.named)
    else if ← eat? "[" then return some (.subscript e (← indices n self))
    else return none) n first

def factorRule : Parser Expr := do
  if ← eat? "+" then return .unary .plus (← self .factor)
  if ← eat? "-" then return .unary .minus (← self .factor)
  if ← eat? "~" then return .unary .invert (← self .factor)
  let base ← if ← eat? "await" then Expr.await <$> primary n self else primary n self
  if ← eat? "**" then return .binary .pow base (← self .factor)
  return base

def comparisonSign : Parser (Option CompareOp) := do
  let t ← peek
  let table : List (String × CompareOp) :=
    [("==", .equal), ("!=", .unequal), ("<", .less), ("<=", .lessEqual), (">", .greater),
     (">=", .greaterEqual), ("in", .member)]
  match signValue? table t with
  | some op =>
    advance
    return some op
  | none =>
    if isSign "is" t then
      advance
      if ← eat? "not" then return some .notSame else return some .same
    else if isSign "not" t && isSign "in" (← peekSecond) then
      advance
      advance
      return some .notMember
    else return none

def comparisons : Parser Expr := do
  let first ← self .operation
  let others ← repeatFor (do
    match ← comparisonSign with
    | none => return none
    | some op => return some (op, ← self .operation)) n
  return if others.isEmpty then first else .comparison first others

def wordJoined (n : Nat) (word : String) (op : LogicOp) (operand : Parser Expr) : Parser Expr := do
  let first ← operand
  let others ← repeatFor (do
    if ← eat? word then return some (← operand) else return none) n
  return if others.isEmpty then first else .logic op (first :: others)

structure LambdaDraft where
  names : LambdaNames := {}
  defaults : List Expr := []
  keywordDefaults : List (Option Expr) := []
  keywords : Bool := false

def lambdaParameter (so : LambdaDraft) : Parser LambdaDraft := do
  if so.names.named.isSome then miss
  if ← eat? "/" then
    if so.keywords || !so.names.positionalOnly.isEmpty || so.names.positional.isEmpty then miss
    else return { so with names := { so.names with
      positionalOnly := so.names.positional, positional := [] } }
  if ← eat? "**" then
    let name ← identifier
    return { so with names := { so.names with named := some name } }
  if ← eat? "*" then
    if so.keywords then miss
    if ← seesIdentifier then
      let name ← identifier
      return { so with keywords := true, names := { so.names with rest := some name } }
    -- A bare star needs a keyword parameter after it.
    if (← sees ",") && (match ← peekSecond with
        | .word w => !isReserved w
        | _ => false) then return { so with keywords := true }
    else miss
  let name ← identifier
  let default ← if ← eat? "=" then some <$> self .expression else pure none
  if so.keywords then
    return { so with
      names := { so.names with keywordOnly := so.names.keywordOnly ++ [name] }
      keywordDefaults := so.keywordDefaults ++ [default] }
  match default with
  | some e => return { so with
      names := { so.names with positional := so.names.positional ++ [name] }
      defaults := so.defaults ++ [e] }
  | none =>
    if !so.defaults.isEmpty then miss
    else return { so with names := { so.names with positional := so.names.positional ++ [name] } }

def lambda : Parser Expr := do
  eat "lambda"
  let draft ← if ← sees ":" then pure {} else
    foldFor (fun so => do
      if !(← sees ",") then return none
      advance
      if ← sees ":" then return none
      return some (← lambdaParameter self so)) n (← lambdaParameter self {})
  eat ":"
  let body ← self .expression
  return .lambda draft.names draft.defaults draft.keywordDefaults body

def Rule.step : Rule → Parser Expr
  | .expression => do
    if ← sees "lambda" then return ← lambda n self
    let value ← self .disjunction
    if ← eat? "if" then
      let test ← self .disjunction
      eat "else"
      return .conditional test value (← self .expression)
    return value
  | .disjunction => wordJoined n "or" .or (wordJoined n "and" .and (self .inversion))
  | .inversion => do
    if ← eat? "not" then return .unary .not (← self .inversion)
    comparisons n self
  | .operation => operatorChain n (self .factor)
  | .factor => factorRule n self

def Expr.parse : Nat → Rule → Parser Expr
  | 0, _ => miss
  | n + 1, r => r.step n (Expr.parse n)

def parsingBound (size : Nat) : Nat := 6 * size + 20

def Expr.read (source : String) : Except Fault Expr :=
  let n := parsingBound source.length
  let whole : Parser Expr := do
    let e ← tupled n (Expr.parse n .expression)
    let _ ← repeatFor (do
      match ← peek with
      | .newline =>
        advance
        return some ()
      | _ => return none) n
    match ← peek with
    | .finish => return e
    | _ => miss
  match whole (openTokens source.toList) with
  | .ok (e, _) => .ok e
  | .error f => .error f.fault

end KeywordDocs.Source
