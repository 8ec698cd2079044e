import KeywordDocs.Module.Call

/-!
# Evaluating Expressions

What an expression of a source stands for when the source is loaded.
-/

namespace KeywordDocs.Module

open Source

variable (self : Evaluator)

def evaluateItems : List Expr → Evaluation (Option (List Entity))
  | [] => return some []
  | .starred e :: rest => do
    let items := (← self.value e).items?
    let more ← evaluateItems rest
    return items.bind fun xs => more.map (xs ++ ·)
  | e :: rest => do
    let x ← self.value e
    let more ← evaluateItems rest
    return more.map (x :: ·)

def gather (make : List Value → Value) (items : List Expr) : Evaluation Entity := do
  match (← evaluateItems self items).bind fun es => es.mapM Entity.value? with
  | some vs => return .data (make vs)
  | none => return .unknown

def putEntry (key value : Value) : List (Value × Value) → List (Value × Value)
  | [] => [(key, value)]
  | (k, v) :: rest => if k.same key then (k, value) :: rest else (k, v) :: putEntry key value rest

def evaluateEntries :
  List (Option Expr × Expr) → List (Value × Value) → Evaluation (Option (List (Value × Value)))
  | [], done => return some done
  | (none, e) :: rest, done => do
    match ← self.value e with
    | .data (.dict more) => evaluateEntries rest (more.foldl (fun d m => putEntry m.1 m.2 d) done)
    | _ =>
      let _ ← evaluateEntries rest done
      return none
  | (some k, e) :: rest, done => do
    let key ← self.value k
    let value ← self.value e
    match key.value?, value.value? with
    | some k, some v => evaluateEntries rest (putEntry k v done)
    | _, _ =>
      let _ ← evaluateEntries rest done
      return none

def evaluateArguments (positional : List Expr)
  (named : List (Option String × Expr)) : Evaluation Arguments := do
  let first ← evaluateItems self positional
  let others ← named.mapM fun n => do return (n.1, ← self.value n.2)
  return { positional := first.getD []
           named := others.filterMap fun n => n.1.map fun name => (name, n.2)
           isOpen := first.isNone || others.any fun n => n.1.isNone }

mutual

def bindTarget : Expr → Entity → Evaluation Unit
  | .name id, e => Evaluation.bindName id e
  | .tuple targets, e => bindTargets targets e.items?
  | .list targets, e => bindTargets targets e.items?
  | .starred t, e => bindTarget t e
  | .attribute (.name id) attr, e => do
    match ← Evaluation.lookupName id with
    | .kind k => Evaluation.bindName id (.kind (k.extend [(attr, e)]))
    | _ => return
  | .attribute value _, _ => do let _ ← self.value value
  | .subscript (.name id) index, e => do
    let place ← self.value index
    match ← Evaluation.lookupName id, place.value?, e.value? with
    | .data (.dict entries), some k, some v => Evaluation.bindName id (.data (.dict (putEntry k v entries)))
    | .data (.dict _), _, _ | .data (.list _), _, _ => Evaluation.bindName id .unknown
    | .data (.object ..), _, _ => return
    | .data _, _, _ => throw "TypeError"
    | _, _, _ => return
  | .subscript value index, _ => do
    let _ ← self.value value
    let _ ← self.value index
  | _, _ => return

def bindTargets : List Expr → Option (List Entity) → Evaluation Unit
  | [], some (_ :: _) => throw "ValueError"
  | [], _ => return
  | .starred t :: rest, some items => do
    if items.length < rest.length then throw "ValueError"
    let taken := items.length - rest.length
    let vs := (items.take taken).mapM Entity.value?
    bindTarget t ((vs.map fun vs => Entity.data (.list vs)).getD .unknown)
    bindTargets rest (some (items.drop taken))
  | _ :: _, some [] => throw "ValueError"
  | t :: rest, some (e :: es) => do
    bindTarget t e
    bindTargets rest (some es)
  | t :: rest, none => do
    bindTarget t .unknown
    bindTargets rest none

end

def allHold : List Expr → Evaluation Bool
  | [] => return true
  | e :: rest => do
    if (← self.value e).isTruthy?.getD true then allHold rest else return false

def comprehend (item : Evaluation Entity) : List Clause → Evaluation (Option (List Entity))
  | [] => do return some [← item]
  | .over _ target source conditions :: rest => do
    match (← self.value source).items? with
    | none => return none
    | some items =>
      let mut found : Option (List Entity) := some []
      for e in items do
        bindTarget self target e
        if ← allHold self conditions then
          let more ← comprehend item rest
          found := found.bind fun xs => more.map (xs ++ ·)
      return found

def comprehension (item : Evaluation Entity) (clauses : List Clause) :
  Evaluation (Option (List Value)) := do
  let layers := (← get).layers
  let (found, _) ← Evaluation.within ({} :: layers) (comprehend self item clauses)
  return found.bind fun es => es.mapM Entity.value?

def templateText : List Expr → Evaluation (Option String)
  | [] => return some ""
  | .field value conversion format :: rest => do
    let e ← self.value value
    let more ← templateText rest
    match e.value?, format with
    | some (.object ..), _ => return none
    | some v, none => return more.map ((if conversion = some 'r' then v.literal else v.display) ++ ·)
    | _, _ => return none
  | e :: rest => do
    let x ← self.value e
    let more ← templateText rest
    return x.value?.bind fun v => more.map (v.display ++ ·)

def canBeJoined : Entity → Bool
  | .data .none | .kind _ | .standard _ | .unknown => true
  | _ => false

def evaluateBinary (op : BinaryOp) (a b : Entity) : Evaluation Entity :=
  match a, b with
  | .data x, .data y => Evaluation.ofResult (applyBinary op x y)
  | .kind k, b =>
    if op = .bitOr && k.enumeration?.isNone && !canBeJoined b then throw "TypeError"
    else return .unknown
  | _, _ => return .unknown

def compareChain (left : Entity) : List (CompareOp × Expr) → Evaluation Entity
  | [] => return .data (.bool true)
  | (op, e) :: rest => do
    let right ← self.value e
    let r ← match left, right with
      | .data x, .data y => Evaluation.ofResult (applyComparison op x y)
      | _, _ => pure .unknown
    match rest, r.isTruthy? with
    | [], _ => return r
    | _, some false => return r
    | _, _ => compareChain right rest

def decideLogic (op : LogicOp) : List Expr → Evaluation Entity
  | [] => return .unknown
  | [e] => self.value e
  | e :: rest => do
    let x ← self.value e
    match op, x.isTruthy? with
    | .and, some false | .or, some true => return x
    | _, _ => decideLogic op rest

def evaluate : Expr → Evaluation Entity
  | .name id => Evaluation.lookupName id
  | .constant v _ => return .data v
  | .attribute value attr => do partOf (← self.value value) attr
  | .subscript value index => do
    let x ← self.value value
    itemOf x (← self.value index)
  | .slice lower upper step => do
    for e in [lower, upper, step].filterMap id do
      let _ ← self.value e
    return .unknown
  | .call function arguments named => do
    let f ← self.value function
    callEntity self f (← evaluateArguments self arguments named)
  | .starred e => self.value e
  | .binary op left right => do
    let a ← self.value left
    evaluateBinary op a (← self.value right)
  | .unary op operand => do
    match op, ← self.value operand with
    | _, .data v => Evaluation.ofResult (applyUnary op v)
    | .not, e => return (e.isTruthy?.map fun b => Entity.data (.bool !b)).getD .unknown
    | _, _ => return .unknown
  | .logic op operands => decideLogic self op operands
  | .comparison left others => do compareChain self (← self.value left) others
  | .conditional test thenValue elseValue => do
    if (← self.value test).isTruthy?.getD true then self.value thenValue else self.value elseValue
  | .lambda names defaults keywordDefaults body => do
    for e in defaults ++ keywordDefaults.filterMap id do
      let _ ← self.value e
    return .nameless names body (← get).captured
  | .tuple items => gather self .tuple items
  | .list items => gather self .list items
  | .set items => do
    match ← gather self .set items with
    | .data (.set vs) =>
      match Value.distinct vs with
      | .ok vs => return .data (.set vs)
      | .error _ => throw "TypeError"
    | e => return e
  | .dict entries => do
    match ← evaluateEntries self entries [] with
    | some es => return .data (.dict es)
    | none => return .unknown
  | .comprehension kind item clauses => do
    match kind, ← comprehension self (self.value item) clauses with
    | .list, some vs => return .data (.list vs)
    | .set, some vs =>
      match Value.distinct vs with
      | .ok vs => return .data (.set vs)
      | .error _ => throw "TypeError"
    | _, _ => return .unknown
  | .dictComprehension key value clauses => do
    let pair : Evaluation Entity := do
      let k ← self.value key
      let v ← self.value value
      match k.value?, v.value? with
      | some k, some v => return .data (.tuple [k, v])
      | _, _ => return .unknown
    match ← comprehension self pair clauses with
    | some vs =>
      return .data (.dict (vs.foldl (fun d v =>
        match v with
        | .tuple [k, v] => putEntry k v d
        | _ => d) []))
    | none => return .unknown
  | .named target value => do
    let e ← self.value value
    Evaluation.bindName target e
    return e
  | .await _ | .yield _ | .yieldFrom _ => return .unknown
  | .template parts => do
    match ← templateText self parts with
    | some s => return .data (.str s)
    | none => return .unknown
  | .field value _ _ => self.value value

end KeywordDocs.Module
