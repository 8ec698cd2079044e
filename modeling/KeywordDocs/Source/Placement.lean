import KeywordDocs.Source.Stmt

/-!
# Statements in Their Places

A program can follow the grammar and not be one that can be run: a result outside a function, a jump outside a
loop, two parameters of one name, a wildcard import within a function, a feature that does not exist.
-/

namespace KeywordDocs.Source.Expr

mutual

def mentions (p : Expr → Bool) : Expr → Bool
  | e@(.name _) => p e
  | e@(.constant ..) => p e
  | e@(.attribute value _) => p e || mentions p value
  | e@(.subscript value index) => p e || mentions p value || mentions p index
  | e@(.slice lower upper step) =>
    p e || mentionsOption p lower || mentionsOption p upper || mentionsOption p step
  | e@(.call function arguments keywords) =>
    p e || mentions p function || mentionsAny p arguments || mentionsNamed p keywords
  | e@(.starred value) => p e || mentions p value
  | e@(.binary _ left right) => p e || mentions p left || mentions p right
  | e@(.unary _ operand) => p e || mentions p operand
  | e@(.logic _ operands) => p e || mentionsAny p operands
  | e@(.comparison left others) => p e || mentions p left || mentionsOthers p others
  | e@(.conditional test a b) => p e || mentions p test || mentions p a || mentions p b
  | e@(.lambda _ defaults keywordDefaults _) =>
    p e || mentionsAny p defaults || mentionsOptions p keywordDefaults
  | e@(.tuple items) => p e || mentionsAny p items
  | e@(.list items) => p e || mentionsAny p items
  | e@(.set items) => p e || mentionsAny p items
  | e@(.dict entries) => p e || mentionsEntries p entries
  | e@(.comprehension _ item clauses) => p e || mentions p item || mentionsClauses p clauses
  | e@(.dictComprehension key value clauses) =>
    p e || mentions p key || mentions p value || mentionsClauses p clauses
  | e@(.named _ value) => p e || mentions p value
  | e@(.await value) => p e || mentions p value
  | e@(.yield value) => p e || mentionsOption p value
  | e@(.yieldFrom value) => p e || mentions p value
  | e@(.template parts) => p e || mentionsAny p parts
  | e@(.field value _ format) => p e || mentions p value || mentionsOption p format

def mentionsAny (p : Expr → Bool) : List Expr → Bool
  | [] => false
  | e :: rest => mentions p e || mentionsAny p rest

def mentionsOption (p : Expr → Bool) : Option Expr → Bool
  | none => false
  | some e => mentions p e

def mentionsOptions (p : Expr → Bool) : List (Option Expr) → Bool
  | [] => false
  | e :: rest => mentionsOption p e || mentionsOptions p rest

def mentionsNamed (p : Expr → Bool) : List (Option String × Expr) → Bool
  | [] => false
  | (_, e) :: rest => mentions p e || mentionsNamed p rest

def mentionsOthers (p : Expr → Bool) : List (CompareOp × Expr) → Bool
  | [] => false
  | (_, e) :: rest => mentions p e || mentionsOthers p rest

def mentionsEntries (p : Expr → Bool) : List (Option Expr × Expr) → Bool
  | [] => false
  | (k, e) :: rest => mentionsOption p k || mentions p e || mentionsEntries p rest

def mentionsClauses (p : Expr → Bool) : List Clause → Bool
  | [] => false
  | .over _ target source conditions :: rest =>
    mentions p target || mentions p source || mentionsAny p conditions || mentionsClauses p rest

end

end KeywordDocs.Source.Expr

namespace KeywordDocs.Source

structure Place where
  inFunction : Bool := false
  inAsync : Bool := false
  inLoop : Bool := false
  inClass : Bool := false

def futureFeatures : List String :=
  ["nested_scopes", "generators", "division", "absolute_import", "with_statement",
   "print_function", "unicode_literals", "barry_as_FLUFL", "generator_stop", "annotations"]

def Parameters.all (p : Parameters) : List Param :=
  p.positionalOnly ++ p.positional ++ p.rest.toList ++ p.keywordOnly ++ p.named.toList

def hasNoRepeats : List String → Bool
  | [] => true
  | a :: rest => !rest.contains a && hasNoRepeats rest

def Place.admits (place : Place) (e : Expr) : Bool :=
  !e.mentions fun part =>
    match part with
    | .yield _ | .yieldFrom _ => !place.inFunction
    | .await _ => !place.inAsync
    | _ => false

def isNotStarred : Expr → Bool
  | .starred _ => false
  | _ => true

def hasOneRest : Expr → Bool
  | .starred _ => false
  | .tuple items | .list items => (items.filter fun e => !isNotStarred e).length ≤ 1
  | _ => true

mutual

def Stmt.isPlaced (place : Place) : Stmt → Bool
  | .function h body =>
    hasNoRepeats (h.parameters.all.map (·.name)) && h.decorators.all place.admits &&
      h.parameters.defaults.all place.admits &&
      Stmt.arePlaced { inFunction := true, inAsync := h.isAsync } body
  | .class h body =>
    h.decorators.all place.admits && h.bases.all (place.admits ·) &&
      Stmt.arePlaced { inClass := true } body
  | .expression e => place.admits e && isNotStarred e
  | .assign targets value => targets.all hasOneRest && isNotStarred value && place.admits value
  | .annotate _ _ value => value.all place.admits
  | .augment _ _ value => place.admits value
  | .give value => place.inFunction && value.all fun e => place.admits e && isNotStarred e
  | .raise cause origin => cause.all place.admits && origin.all place.admits
  | .check test _ => place.admits test
  | .importFrom name names level =>
    (place.inFunction || place.inClass) = false || names.all fun i => i.name ≠ "*" &&
      !(name = some "__future__" && level = 0)
  | .declareNonlocal _ => place.inFunction
  | .breakLoop | .continueLoop => place.inLoop
  | .branch test a b => place.admits test && Stmt.arePlaced place a && Stmt.arePlaced place b
  | .whileLoop test a b =>
    place.admits test && Stmt.arePlaced { place with inLoop := true } a && Stmt.arePlaced place b
  | .forLoop isAsync _ source a b =>
    (!isAsync || place.inAsync) && place.admits source &&
      Stmt.arePlaced { place with inLoop := true } a && Stmt.arePlaced place b
  | .withBlock isAsync _ body => (!isAsync || place.inAsync) && Stmt.arePlaced place body
  | .tryBlock body handlers elseBody finalBody =>
    Stmt.arePlaced place body && Stmt.handlersPlaced place handlers &&
      Stmt.arePlaced place elseBody && Stmt.arePlaced place finalBody
  | .matchBlock subject cases => place.admits subject && Stmt.casesPlaced place cases
  | .delete _ | .importModules _ | .declareGlobal _ | .pass => true

def Stmt.arePlaced (place : Place) : List Stmt → Bool
  | [] => true
  | s :: rest => Stmt.isPlaced place s && Stmt.arePlaced place rest

def Stmt.handlersPlaced (place : Place) : List Handler → Bool
  | [] => true
  | .on kind _ body :: rest =>
    (kind.isSome || rest.isEmpty) && Stmt.arePlaced place body && Stmt.handlersPlaced place rest

def Stmt.casesPlaced (place : Place) : List Case → Bool
  | [] => true
  | .on _ _ body :: rest => Stmt.arePlaced place body && Stmt.casesPlaced place rest

end

def Stmt.isFeatureRequest : Stmt → Bool
  | .importFrom (some "__future__") _ 0 => true
  | _ => false

def Stmt.asksForKnown : Stmt → Bool
  | .importFrom (some "__future__") names 0 => names.all fun i => futureFeatures.contains i.name
  | _ => true

def withoutDocumentation (program : List Stmt) : List Stmt :=
  if (documentation? program).isSome then program.tail else program

def isWellPlaced (program : List Stmt) : Bool :=
  Stmt.arePlaced {} program && program.all Stmt.asksForKnown &&
    !((withoutDocumentation program).dropWhile Stmt.isFeatureRequest).any Stmt.isFeatureRequest

end KeywordDocs.Source
