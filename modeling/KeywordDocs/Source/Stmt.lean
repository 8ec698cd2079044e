import KeywordDocs.Value.Shown

/-!
# Syntax Trees of a Library's Source

The syntax tree of expressions: annotations, defaults, decorators and everything a module computes when
it is loaded.
-/

namespace KeywordDocs.Source

inductive BinaryOp where
  | add
  | sub
  | mul
  | matMul
  | div
  | mod
  | pow
  | shiftLeft
  | shiftRight
  | bitOr
  | bitXor
  | bitAnd
  | floorDiv
  deriving DecidableEq

inductive UnaryOp where
  | invert
  | not
  | plus
  | minus

inductive LogicOp where
  | and
  | or

inductive CompareOp where
  | equal
  | unequal
  | less
  | lessEqual
  | greater
  | greaterEqual
  | same
  | notSame
  | member
  | notMember

inductive ComprehensionKind where
  | list
  | set
  | generator

structure LambdaNames where
  positionalOnly : List String := []
  positional : List String := []
  rest : Option String := none
  keywordOnly : List String := []
  named : Option String := none

mutual

inductive Expr where
  | name (id : String)
  /-- A literal; a text may carry the old mark for texts. -/
  | constant (value : Value) (marked : Bool)
  | attribute (value : Expr) (field : String)
  | subscript (value index : Expr)
  | slice (lower upper step : Option Expr)
  /-- A call; an argument without a name among the named ones is a mapping to be unpacked. -/
  | call (function : Expr) (arguments : List Expr) (named : List (Option String × Expr))
  | starred (value : Expr)
  | binary (op : BinaryOp) (left right : Expr)
  | unary (op : UnaryOp) (operand : Expr)
  | logic (op : LogicOp) (operands : List Expr)
  | comparison (left : Expr) (others : List (CompareOp × Expr))
  | conditional (test thenValue elseValue : Expr)
  /-- A nameless function, with the defaults of its last positional and its keyword parameters. -/
  | lambda (names : LambdaNames) (defaults : List Expr) (keywordDefaults : List (Option Expr))
      (body : Expr)
  | tuple (items : List Expr)
  | list (items : List Expr)
  | set (items : List Expr)
  /-- A dictionary; an entry without a key is a mapping to be unpacked. -/
  | dict (entries : List (Option Expr × Expr))
  | comprehension (kind : ComprehensionKind) (item : Expr) (clauses : List Clause)
  | dictComprehension (key value : Expr) (clauses : List Clause)
  | named (target : String) (value : Expr)
  | await (value : Expr)
  | yield (value : Option Expr)
  | yieldFrom (value : Expr)
  | template (parts : List Expr)
  | field (value : Expr) (conversion : Option Char) (format : Option Expr)

inductive Clause where
  | over (isAsync : Bool) (target source : Expr) (conditions : List Expr)

end

instance : Inhabited Expr := ⟨.name ""⟩

namespace Expr

mutual

def isTarget : Expr → Bool
  | .name _ | .attribute .. | .subscript .. => true
  | .tuple items | .list items => areTargets items
  | .starred e => isTarget e
  | _ => false

def areTargets : List Expr → Bool
  | [] => true
  | e :: rest => isTarget e && areTargets rest

end

def isSingleTarget : Expr → Bool
  | .name _ | .attribute .. | .subscript .. => true
  | _ => false

mutual

def isDeletable : Expr → Bool
  | .name _ | .attribute .. | .subscript .. => true
  | .tuple items | .list items => areDeletable items
  | _ => false

def areDeletable : List Expr → Bool
  | [] => true
  | e :: rest => isDeletable e && areDeletable rest

end

end Expr

structure Param where
  name : String
  hint : Option Expr := none

structure Parameters where
  positionalOnly : List Param := []
  positional : List Param := []
  defaults : List Expr := []
  rest : Option Param := none
  keywordOnly : List Param := []
  /-- The default of each keyword-only parameter, if it has one. -/
  keywordDefaults : List (Option Expr) := []
  named : Option Param := none

structure Function where
  isAsync : Bool := false
  /-- The line of the first decorator, or of the definition itself. -/
  firstLine : Nat := 0
  line : Nat := 0
  decorators : List Expr := []
  name : String
  parameters : Parameters := {}
  returns : Option Expr := none

structure ClassHead where
  decorators : List Expr := []
  name : String
  bases : List Expr := []
  options : List (Option String × Expr) := []

structure Imported where
  name : String
  newName : Option String := none

mutual

inductive Stmt where
  | function (head : Function) (body : List Stmt)
  | class (head : ClassHead) (body : List Stmt)
  | expression (e : Expr)
  | assign (targets : List Expr) (value : Expr)
  | annotate (target hint : Expr) (value : Option Expr)
  | augment (target : Expr) (op : BinaryOp) (value : Expr)
  | give (value : Option Expr)
  | delete (targets : List Expr)
  | raise (cause origin : Option Expr)
  | check (test : Expr) (message : Option Expr)
  | importModules (names : List Imported)
  /-- Names from a module; `level` counts the dots before its name. -/
  | importFrom (moduleName : Option String) (names : List Imported) (level : Nat)
  | declareGlobal (names : List String)
  | declareNonlocal (names : List String)
  | pass
  | breakLoop
  | continueLoop
  | branch (test : Expr) (thenBody elseBody : List Stmt)
  | whileLoop (test : Expr) (body elseBody : List Stmt)
  | forLoop (isAsync : Bool) (target source : Expr) (body elseBody : List Stmt)
  | withBlock (isAsync : Bool) (items : List (Expr × Option Expr)) (body : List Stmt)
  | tryBlock (body : List Stmt) (handlers : List Handler) (elseBody finalBody : List Stmt)
  | matchBlock (subject : Expr) (cases : List Case)

inductive Handler where
  | on (kind : Option Expr) (name : Option String) (body : List Stmt)

inductive Case where
  | on (pattern : Expr) (guard : Option Expr) (body : List Stmt)

end

instance : Inhabited Stmt := ⟨.pass⟩

def leadingLiteral? : List Stmt → Option Value
  | .expression (.constant v _) :: _ => some v
  | _ => none

def documentation? (body : List Stmt) : Option String := (leadingLiteral? body).bind Value.text?

namespace Stmt

def mergeLevels : List (List Stmt) → List (List Stmt) → List (List Stmt)
  | [], bs => bs
  | as, [] => as
  | a :: as, b :: bs => (a ++ b) :: mergeLevels as bs

mutual

def levels : Stmt → List (List Stmt)
  | s@(.function _ body) => [s] :: allLevels body
  | s@(.class _ body) => [s] :: allLevels body
  | s@(.branch _ a b) => [s] :: mergeLevels (allLevels a) (allLevels b)
  | s@(.whileLoop _ a b) => [s] :: mergeLevels (allLevels a) (allLevels b)
  | s@(.forLoop _ _ _ a b) => [s] :: mergeLevels (allLevels a) (allLevels b)
  | s@(.withBlock _ _ body) => [s] :: allLevels body
  | s@(.tryBlock body handlers elseBody finalBody) =>
    [s] :: mergeLevels (allLevels body) (mergeLevels ([] :: handlerLevels handlers)
      (mergeLevels (allLevels elseBody) (allLevels finalBody)))
  | s@(.matchBlock _ cases) => [s] :: [] :: caseLevels cases
  | s => [[s]]

def allLevels : List Stmt → List (List Stmt)
  | [] => []
  | s :: rest => mergeLevels (levels s) (allLevels rest)

def handlerLevels : List Handler → List (List Stmt)
  | [] => []
  | .on _ _ body :: rest => mergeLevels (allLevels body) (handlerLevels rest)

def caseLevels : List Case → List (List Stmt)
  | [] => []
  | .on _ _ body :: rest => mergeLevels (allLevels body) (caseLevels rest)

end

def everywhere (program : List Stmt) : List Stmt := (allLevels program).flatten

def classes (program : List Stmt) : List (ClassHead × List Stmt) :=
  (everywhere program).filterMap fun s =>
    match s with
    | .class h body => some (h, body)
    | _ => none

end Stmt

end KeywordDocs.Source
