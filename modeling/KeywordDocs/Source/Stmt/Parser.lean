import KeywordDocs.Source.Expr.Parser

/-!
# Parsing Statements

The grammar of statements. A block is the rest of a line or the indented lines that follow; `blockAt` ties the
parser for blocks and the rules of compound statements together, with a count that bounds the nesting.
-/

namespace KeywordDocs.Source

open Source.Parser

structure Bound where
  count : Nat

namespace Bound

def expression (b : Bound) : Parser Expr := Expr.parse b.count .expression

def named (b : Bound) : Parser Expr := namedExpression (Expr.parse b.count)

def expressions (b : Bound) : Parser Expr := starExpressions b.count (Expr.parse b.count)

def value (b : Bound) : Parser Expr := do
  if ← sees "yield" then yieldExpression b.count (Expr.parse b.count) else b.expressions

def optional (b : Bound) : Parser (Option Expr) := do
  if ← startsExpression then return some (← b.expressions) else return none

end Bound

def augmentSigns : List (String × BinaryOp) :=
  [("+=", .add), ("-=", .sub), ("*=", .mul), ("@=", .matMul), ("/=", .div), ("%=", .mod),
   ("&=", .bitAnd), ("|=", .bitOr), ("^=", .bitXor), ("<<=", .shiftLeft), (">>=", .shiftRight),
   ("**=", .pow), ("//=", .floorDiv)]

def assignChain (b : Bound) : Nat → List Expr → Expr → Parser Stmt
  | 0, _, _ => miss
  | n + 1, targets, e => do
    if ← sees "=" then
      if !e.isTarget then miss
      eat "="
      assignChain b n (targets ++ [e]) (← b.value)
    else return .assign targets e

def expressionStatement (b : Bound) : Parser Stmt := do
  let first ← b.value
  if ← sees "=" then return ← assignChain b b.count [] first
  if ← sees ":" then
    if !first.isSingleTarget then miss
    eat ":"
    let hint ← b.expression
    let value ← if ← eat? "=" then some <$> b.value else pure none
    return .annotate first hint value
  match signValue? augmentSigns (← peek) with
  | some op =>
    if !first.isSingleTarget then miss
    advance
    return .augment first op (← b.value)
  | none => return .expression first

def nameList (b : Bound) : Parser (List String) := do
  let first ← identifier
  let rest ← repeatFor (do
    if ← eat? "," then return some (← identifier) else return none) b.count
  return first :: rest

def dottedName (b : Bound) : Parser String := do
  let first ← identifier
  let rest ← repeatFor (do
    if ← eat? "." then return some (← identifier) else return none) b.count
  return rest.foldl (fun s part => s ++ "." ++ part) first

def aliasName : Parser (Option String) := do
  if ← eat? "as" then return some (← identifier) else return none

def importStatement (b : Bound) : Parser Stmt := do
  eat "import"
  let item : Parser Imported := do
    let name ← dottedName b
    return ⟨name, ← aliasName⟩
  let first ← item
  let rest ← repeatFor (do if ← eat? "," then return some (← item) else return none) b.count
  return .importModules (first :: rest)

def leadingDots (b : Bound) : Parser Nat := do
  let dots ← repeatFor (do
    if ← eat? "." then return some 1
    else if ← eat? "..." then return some 3
    else return none) b.count
  return dots.foldl (fun n d => n + d) 0

def importFromStatement (b : Bound) : Parser Stmt := do
  eat "from"
  let level ← leadingDots b
  let name ← if ← seesIdentifier then some <$> dottedName b
    else if level = 0 then miss else pure none
  eat "import"
  if ← eat? "*" then return .importFrom name [⟨"*", none⟩] level
  let item : Parser Imported := do
    let n ← identifier
    return ⟨n, ← aliasName⟩
  if ← eat? "(" then
    let first ← item
    let rest ← commaTail seesIdentifier item b.count
    eat ")"
    return .importFrom name (first :: rest) level
  let first ← item
  let rest ← repeatFor (do if ← eat? "," then return some (← item) else return none) b.count
  return .importFrom name (first :: rest) level

def deleteStatement (b : Bound) : Parser Stmt := do
  eat "del"
  match ← b.expressions with
  | .tuple items => if Expr.areDeletable items then return .delete items else miss
  | e => if e.isDeletable then return .delete [e] else miss

def simpleStatement (b : Bound) : Parser Stmt := do
  match ← peek with
  | .word "return" =>
    advance
    return .give (← b.optional)
  | .word "import" => importStatement b
  | .word "from" => importFromStatement b
  | .word "raise" =>
    advance
    if ← startsExpression then
      let cause ← b.expression
      let origin ← if ← eat? "from" then some <$> b.expression else pure none
      return .raise (some cause) origin
    return .raise none none
  | .word "pass" =>
    advance
    return .pass
  | .word "break" =>
    advance
    return .breakLoop
  | .word "continue" =>
    advance
    return .continueLoop
  | .word "del" => deleteStatement b
  | .word "assert" =>
    advance
    let test ← b.expression
    let message ← if ← eat? "," then some <$> b.expression else pure none
    return .check test message
  | .word "global" =>
    advance
    return .declareGlobal (← nameList b)
  | .word "nonlocal" =>
    advance
    return .declareNonlocal (← nameList b)
  | _ => expressionStatement b

def endOfLine : Parser Unit := do
  match ← peek with
  | .newline => advance
  | _ => miss

def lineOfStatements (b : Bound) : Nat → Parser (List Stmt)
  | 0 => miss
  | n + 1 => do
    let first ← simpleStatement b
    if ← eat? ";" then
      match ← peek with
      | .newline =>
        advance
        return [first]
      | _ =>
        let rest ← lineOfStatements b n
        return first :: rest
    endOfLine
    return [first]

structure ParameterDraft where
  done : Parameters := {}
  keywords : Bool := false

def annotatedParam (b : Bound) (starred : Bool) : Parser Param := do
  let name ← identifier
  if ← eat? ":" then
    let hint ← if starred then starExpression (Expr.parse b.count) else b.expression
    return ⟨name, some hint⟩
  return ⟨name, none⟩

def parameter (b : Bound) (so : ParameterDraft) : Parser ParameterDraft := do
  let p := so.done
  if p.named.isSome then miss
  if ← eat? "/" then
    if so.keywords || !p.positionalOnly.isEmpty || p.positional.isEmpty then miss
    else return { so with done := { p with positionalOnly := p.positional, positional := [] } }
  if ← eat? "**" then
    let q ← annotatedParam b false
    return { so with done := { p with named := some q } }
  if ← eat? "*" then
    if so.keywords then miss
    if ← seesIdentifier then
      let q ← annotatedParam b true
      return { done := { p with rest := some q }, keywords := true }
    -- A bare star needs a keyword parameter after it.
    if (← sees ",") && (match ← peekSecond with
        | .word w => !isReserved w
        | _ => false) then return { so with keywords := true }
    else miss
  let q ← annotatedParam b false
  let default ← if ← eat? "=" then some <$> b.expression else pure none
  if so.keywords then
    return { so with done := { p with
      keywordOnly := p.keywordOnly ++ [q], keywordDefaults := p.keywordDefaults ++ [default] } }
  match default with
  | some e => return { so with done := { p with
      positional := p.positional ++ [q], defaults := p.defaults ++ [e] } }
  | none =>
    if !p.defaults.isEmpty then miss
    else return { so with done := { p with positional := p.positional ++ [q] } }

def parameters (b : Bound) : Parser Parameters := do
  if ← eat? ")" then return {}
  let first ← parameter b {}
  let all ← foldFor (fun so => do
    if !(← eat? ",") then return none
    if ← sees ")" then return none
    return some (← parameter b so)) b.count first
  eat ")"
  return all.done

def decorators (b : Bound) : Parser (List Expr) :=
  repeatFor (do
    if !(← eat? "@") then return none
    let e ← b.named
    endOfLine
    return some e) b.count

variable (b : Bound) (block : Parser (List Stmt))

def functionDefinition (decorators : List Expr)
  (isAsync : Bool) (firstLine line : Nat) : Parser Stmt := do
  eat "def"
  let name ← identifier
  eat "("
  let parameters ← parameters b
  let returns ← if ← eat? "->" then some <$> b.expression else pure none
  eat ":"
  return .function { isAsync, firstLine, line, decorators, name, parameters, returns } (← block)

def classDefinition (decorators : List Expr) : Parser Stmt := do
  eat "class"
  let name ← identifier
  let args ← if ← eat? "(" then arguments b.count (Expr.parse b.count) else pure {}
  eat ":"
  return .class { decorators, name, bases := args.positional, options := args.named } (← block)

def optionalBlock (word : String) (block : Parser (List Stmt)) : Parser (List Stmt) := do
  if ← eat? word then
    eat ":"
    block
  else return []

def branchStatement : Nat → Parser Stmt
  | 0 => miss
  | n + 1 => do
    let test ← b.named
    eat ":"
    let body ← block
    if ← eat? "elif" then return .branch test body [← branchStatement n]
    return .branch test body (← optionalBlock "else" block)

def forStatement (isAsync : Bool) : Parser Stmt := do
  eat "for"
  let target ← targets b.count (Expr.parse b.count)
  eat "in"
  let source ← b.expressions
  eat ":"
  let body ← block
  return .forLoop isAsync target source body (← optionalBlock "else" block)

def withItem (b : Bound) : Parser (Expr × Option Expr) := do
  let e ← b.expression
  if ← eat? "as" then
    let target ← starExpression fun _ => Expr.parse b.count .operation
    if target.isTarget then return (e, some target) else miss
  return (e, none)

def bracketedItems (b : Bound) : Parser (List (Expr × Option Expr)) := do
  eat "("
  let first ← withItem b
  let rest ← commaTail (do return !(← sees ")")) (withItem b) b.count
  eat ")"
  eat ":"
  return first :: rest

def plainItems (b : Bound) : Parser (List (Expr × Option Expr)) := do
  let first ← withItem b
  let rest ← repeatFor (do if ← eat? "," then return some (← withItem b) else return none) b.count
  eat ":"
  return first :: rest

def withStatement (isAsync : Bool) : Parser Stmt := do
  eat "with"
  let items ← if ← sees "(" then either (bracketedItems b) (plainItems b) else plainItems b
  return .withBlock isAsync items (← block)

def handler : Parser (Option (Handler × Bool)) := do
  if !(← eat? "except") then return none
  let grouped ← eat? "*"
  if (← sees ":") && !grouped then
    eat ":"
    return some (.on none none (← block), false)
  let kind ← b.expression
  let name ← if ← eat? "as" then some <$> identifier else pure none
  eat ":"
  return some (.on (some kind) name (← block), grouped)

def tryStatement : Parser Stmt := do
  eat "try"
  eat ":"
  let body ← block
  let handlers ← repeatFor (handler b block) b.count
  let grouped := handlers.map Prod.snd
  if grouped.any id && !grouped.all id then miss
  let elseBody ← if handlers.isEmpty then pure [] else optionalBlock "else" block
  let finalBody ← optionalBlock "finally" block
  if handlers.isEmpty && finalBody.isEmpty then missWith .malformedSource
  return .tryBlock body (handlers.map Prod.fst) elseBody finalBody

def casePattern (b : Bound) : Parser Expr :=
  tupled b.count (do
    let p ← if ← sees "*" then starredOperand (Expr.parse b.count)
      else Expr.parse b.count .operation
    if ← eat? "as" then
      let _ ← identifier
      return p
    return p)

def caseClause : Parser (Option Case) := do
  if !(← sees "case") then return none
  advance
  let pattern ← casePattern b
  let guard ← if ← eat? "if" then some <$> b.named else pure none
  eat ":"
  return some (.on pattern guard (← block))

def matchStatement : Parser Stmt := do
  eat "match"
  let subject ← tupled b.count (starNamedExpression (Expr.parse b.count))
  eat ":"
  endOfLine
  match ← peek with
  | .indent => advance
  | _ => missWith .badIndentation
  let cases ← repeatFor (caseClause b block) b.count
  if cases.isEmpty then miss
  match ← peek with
  | .dedent => advance
  | _ => miss
  return .matchBlock subject cases

def compoundStatement? : Parser (Option Stmt) := do
  let first ← line
  match ← peek with
  | .mark "@" =>
    let ds ← decorators b
    let line ← Parser.line
    if ← sees "class" then return some (← classDefinition b block ds)
    let isAsync ← eat? "async"
    return some (← functionDefinition b block ds isAsync first line)
  | .word "def" => return some (← functionDefinition b block [] false first first)
  | .word "class" => return some (← classDefinition b block [])
  | .word "async" =>
    advance
    if ← sees "for" then return some (← forStatement b block true)
    if ← sees "with" then return some (← withStatement b block true)
    return some (← functionDefinition b block [] true first first)
  | .word "if" =>
    advance
    return some (← branchStatement b block b.count)
  | .word "while" =>
    advance
    let test ← b.named
    eat ":"
    let body ← block
    return some (.whileLoop test body (← optionalBlock "else" block))
  | .word "for" => return some (← forStatement b block false)
  | .word "try" => return some (← tryStatement b block)
  | .word "with" => return some (← withStatement b block false)
  | _ => return none

def statement : Parser (List Stmt) := do
  match ← compoundStatement? b block with
  | some s => return [s]
  | none =>
    if ← sees "match" then
      either (List.singleton <$> matchStatement b block) (lineOfStatements b b.count)
    else lineOfStatements b b.count

def blockAt (b : Bound) : Nat → Parser (List Stmt)
  | 0 => miss
  | n + 1 => do
    match ← peek with
    | .newline =>
      advance
      match ← peek with
      | .indent => advance
      | .fault f => missWith f
      | _ => missWith .badIndentation
      let body ← repeatFor (do
        match ← peek with
        | .dedent => return none
        | .finish => return none
        | _ => return some (← statement b (blockAt b n))) b.count
      match ← peek with
      | .dedent => advance
      | _ => miss
      return body.flatten
    | _ => lineOfStatements b b.count

abbrev Program := List Stmt

def Program.read (source : String) : Except Fault Program :=
  let n := parsingBound source.length
  let b : Bound := ⟨n⟩
  let whole : Parser Program := do
    let body ← repeatFor (do
      match ← peek with
      | .finish => return none
      | _ => return some (← statement b (blockAt b n))) n
    return body.flatten
  match whole (tokens source.toList) with
  | .ok (p, _) => .ok p
  | .error f => .error f.fault

end KeywordDocs.Source
