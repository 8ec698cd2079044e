import KeywordDocs.Module.Evaluation

/-!
# Running Statements

What the statements of a source do when the source is loaded.
-/

namespace KeywordDocs.Module

open Source

variable (self : Evaluator) (path : String) (entries : Entries)

def evaluateAll (es : List Expr) : Evaluation Unit := do
  for e in es do
    let _ ← self.value e

def annotateAll (es : List Expr) : Evaluation Unit := do
  if !(← get).isDeferred then evaluateAll self es

def decorateAll (decorators : List Entity) (e : Entity) : Evaluation Entity :=
  decorators.foldrM (fun d e => decorate self d e) e

def annotationsOf (h : Function) : List Expr :=
  let p := h.parameters
  (p.positionalOnly ++ p.positional ++ p.rest.toList ++ p.keywordOnly ++ p.named.toList).filterMap
    (·.hint) ++ h.returns.toList

def defineFunction (h : Function) (body : List Stmt) : Evaluation Unit := do
  let decorators ← h.decorators.mapM self.value
  evaluateAll self (h.parameters.defaults ++ h.parameters.keywordDefaults.filterMap id)
  annotateAll self (annotationsOf h)
  let s ← get
  let r : Routine := { head := h, body := body, home := s.home }
  Evaluation.bindName h.name (← decorateAll self decorators (.routine r s.captured))

def splitPath : String × String :=
  match (Text.splitOn "." path).reverse with
  | [] => ("", path)
  | last :: before => (Text.join "." before.reverse, last)

def baseOf : Entity → Evaluation Kind
  | .kind k => return k
  | .standard path => let (home, name) := splitPath path; return .mk name home [] [] none
  | .data (.object ..) | .unknown => return .mk "" "abc" [] [] none
  | _ => throw "TypeError"

def chosenValue (r : Routine) (captured : Entries) (name : String)
  (before : List Value) : Evaluation Entity :=
  callRoutine self r captured { positional := [.data (.str name), .data (.int 1),
    .data (.int before.length), .data (.list before)] }

def chooseValues : Evaluation Entries := do
  match entries.lookup "_generate_next_value_" with
  | some (.routine r captured) =>
    let mut before : List Value := []
    let mut done : Entries := []
    for (name, e) in entries do
      let e ← match e with
        | .automatic => chosenValue self r captured name before
        | e => pure e
      match e with
      | .data v => if !isSetApart name then before := before ++ [v]
      | _ => pure ()
      done := done ++ [(name, e)]
    return done
  | _ => return entries

def enumerationOf (bases : List Kind) (entries : Entries) : Evaluation (Option Enumeration) := do
  match bases.findSome? Kind.enumeration? with
  | none => return none
  | some base =>
    if bases.any fun b => (b.enumeration?.map fun e => !(e.members ++ e.combined).isEmpty).getD false
      then throw "TypeError"
    let plain := (bases.filter Kind.isBuiltin).map Kind.name
    let base := match plain with
      | "str" :: _ => { base with mode := .text, mixin := some "str" }
      | "int" :: _ => { base with mode := .integer, mixin := some "int" }
      | "float" :: _ => { base with mixin := some "float" }
      | _ => base
    match Enumeration.ofEntries base (← chooseValues self entries) with
    | .ok e => return some e
    | .error t => throw t

def defineClass (h : ClassHead) (body : List Stmt) : Evaluation Unit := do
  let decorators ← h.decorators.mapM self.value
  let given ← evaluateItems self h.bases
  let bases ← (given.getD [.unknown]).mapM baseOf
  evaluateAll self (h.options.map Prod.snd)
  let s ← get
  let (_, entries) ← Evaluation.within ({ isClass := true } :: s.layers) (runAll self body)
  let own := (documentation? body).toList.map fun doc => ("__doc__", Entity.data (.str doc))
  let k : Kind := .mk h.name s.home bases (own ++ entries) (← enumerationOf self bases entries)
  Evaluation.bindName h.name (← decorateAll self decorators (.kind k))

def pathParts : List String := Text.splitOn "." path

def nestModules (before : List String) : List String → Evaluation (Option (String × Entity))
  | [] => return none
  | part :: rest => do
    let path := before ++ [part]
    let outer ← self.load path
    match ← nestModules path rest, outer with
    | some (name, inner), .module m entries => return some (part, .module m (Entries.bind name inner entries))
    | _, _ => return some (part, outer)

def importModule (i : Imported) : Evaluation Unit := do
  let parts := pathParts i.name
  match i.newName, isStandardModule i.name with
  | some name, true => Evaluation.bindName name (.standard i.name)
  | none, true => Evaluation.bindName (parts.headD "") (.standard (parts.headD ""))
  | some name, false =>
    let _ ← nestModules self [] parts
    Evaluation.bindName name (← self.load parts)
  | none, false =>
    match ← nestModules self [] parts with
    | some (name, e) => Evaluation.bindName name e
    | none => return

def isTaken (name : String) : Bool :=
  match entries.lookup "__all__" with
  | some (.data (.list items)) | some (.data (.tuple items)) => items.any fun v => v.text? == some name
  | _ => !Text.startsWith "_" name

def importStandardNames (names : List Imported) : Evaluation Unit := do
  for i in names do
    if i.name = "*" then
      for name in (wildcardNames? path).getD [] do
        match standardPart path name with
        | some e => Evaluation.bindName name e
        | none => pure ()
    else
      match standardPart path i.name with
      | some e => Evaluation.bindName (i.newName.getD i.name) e
      | none => throw "ImportError"

def importOwnNames (path : List String) (names : List Imported) : Evaluation Unit := do
  match ← self.load path with
  | .module _ entries =>
    for i in names do
      if i.name = "*" then
        for (name, e) in entries do
          if isTaken entries name then Evaluation.bindName name e
      else
        match entries.lookup i.name with
        | some e => Evaluation.bindName (i.newName.getD i.name) e
        | none =>
          let e ← tryCatch (self.load (path ++ [i.name])) fun t =>
            throw (if t = "ModuleNotFoundError" then "ImportError" else t)
          Evaluation.bindName (i.newName.getD i.name) e
  | _ => return

def importNames (moduleName : Option String) (names : List Imported)
  (level : Nat) : Evaluation Unit := do
  match moduleName with
  | some "__future__" =>
    if names.any fun i => i.name = "annotations" then
      modify fun s => { s with isDeferred := true }
  | some name =>
    if level ≠ 0 then throw "ImportError"
    else if isStandardModule name then importStandardNames name names
    else
      let _ ← nestModules self [] (pathParts name)
      importOwnNames self (pathParts name) names
  | none => throw "ImportError"

def extraordinary : List Trouble := ["SystemExit", "KeyboardInterrupt", "GeneratorExit"]

def widerKinds : List (String × List String) :=
  [("ImportError", ["ModuleNotFoundError"]), ("LookupError", ["KeyError", "IndexError"]),
   ("ArithmeticError", ["ZeroDivisionError", "OverflowError", "FloatingPointError"]),
   ("NameError", ["UnboundLocalError"]), ("RuntimeError", ["RecursionError", "NotImplementedError"]),
   ("OSError", ["FileNotFoundError", "PermissionError", "FileExistsError", "IsADirectoryError",
     "NotADirectoryError", "TimeoutError", "ConnectionError"]),
   ("ValueError", ["UnicodeError", "UnicodeDecodeError", "UnicodeEncodeError"])]

def takesTrouble (kindName : String) (t : Trouble) : Bool :=
  kindName = t || kindName = "BaseException" ||
    (kindName = "Exception" && !extraordinary.contains t) ||
    ((widerKinds.lookup kindName).getD []).contains t

def handlerTakes (t : Trouble) : Entity → Bool
  | .kind k => takesTrouble k.name t
  | .data (.tuple items) => items.any fun v =>
    match v with
    | .kind name => takesTrouble (splitPath name).2 t
    | _ => false
  | _ => false

def handleTrouble (t : Trouble) : List Handler → Evaluation Signal
  | [] => throw t
  | .on kind name body :: rest => do
    let takes ← match kind with
      | none => pure true
      | some e => do pure (handlerTakes t (← self.value e))
    if takes then
      for n in name.toList do
        Evaluation.bindName n (.data (.object t ""))
      let signal ← runAll self body
      for n in name.toList do
        modify (Scope.unbind n)
      return signal
    else handleTrouble t rest

def troubleOf (e : Entity) : Evaluation Trouble := do
  match e with
  | .kind k =>
    let _ ← callKind self k {}
    return k.name
  | .data (.object name _) => return name
  | .data _ => return "TypeError"
  | _ => return "Exception"

def runRounds (target : Expr) (body : List Stmt) : List Entity → Evaluation (Option Signal)
  | [] => return none
  | e :: rest => do
    bindTarget self target e
    match ← runAll self body with
    | .leaveLoop => return some .onward
    | .give e => return some (.give e)
    | _ => runRounds target body rest

def execute (stmt : Stmt) : Evaluation Signal := do
  match stmt with
  | .function head body => defineFunction self head body; return .onward
  | .class head body => defineClass self head body; return .onward
  | .expression e => let _ ← self.value e; return .onward
  | .assign targets value =>
    let e ← self.value value
    for t in targets do bindTarget self t e
    return .onward
  | .annotate target hint value =>
    for e in value.toList do bindTarget self target (← self.value e)
    annotateAll self [hint]
    return .onward
  | .augment target op value =>
    let old ← self.value target
    let e ← self.value value
    bindTarget self target (← evaluateBinary op old e)
    return .onward
  | .give value =>
    match value with
    | none => return .give (.data .none)
    | some e => return .give (← self.value e)
  | .delete targets =>
    for t in targets do
      match t with
      | .name id =>
        let _ ← Evaluation.lookupName id
        modify (Scope.unbind id)
      | _ => pure ()
    return .onward
  | .raise cause _ =>
    match cause with
    | none => throw "RuntimeError"
    | some e => throw (← troubleOf self (← self.value e))
  | .check test _ =>
    if (← self.value test).isTruthy?.getD true then return .onward else throw "AssertionError"
  | .importModules names =>
    for i in names do importModule self i
    return .onward
  | .importFrom moduleName names level => importNames self moduleName names level; return .onward
  | .declareGlobal names =>
    modify fun s => match s.layers with
      | [] => s
      | l :: rest => { s with layers := { l with shared := l.shared ++ names } :: rest }
    return .onward
  | .declareNonlocal _ | .pass => return .onward
  | .breakLoop => return .leaveLoop
  | .continueLoop => return .nextRound
  | .branch test thenBody elseBody =>
    if (← self.value test).isTruthy?.getD true then runAll self thenBody
    else runAll self elseBody
  | .whileLoop test body elseBody =>
    match (← self.value test).isTruthy? with
    | some true =>
      match ← runAll self body with
      | .leaveLoop => return .onward
      | .give e => return .give e
      | _ => self.run (.whileLoop test body elseBody)
    | some false => runAll self elseBody
    | none => return .onward
  | .forLoop _ target source body elseBody =>
    match (← self.value source).items? with
    | none =>
      bindTarget self target .unknown
      return .onward
    | some items =>
      match ← runRounds self target body items with
      | some signal => return signal
      | none => runAll self elseBody
  | .withBlock _ items body =>
    for (e, target) in items do
      let _ ← self.value e
      for t in target.toList do bindTarget self t .unknown
    runAll self body
  | .tryBlock body handlers elseBody finalBody =>
    let guarded : Evaluation Signal := do
      let (failed, signal) ← tryCatch (do return (none, ← runAll self body))
        fun t => return (some t, .onward)
      match failed, signal with
      | some t, _ => handleTrouble self t handlers
      | none, .onward => runAll self elseBody
      | none, signal => return signal
    let signal ← tryCatch guarded fun t => do
      let _ ← runAll self finalBody
      throw t
    match ← runAll self finalBody with
    | .onward => return signal
    | last => return last
  | .matchBlock subject _ =>
    let _ ← self.value subject
    return .onward

end KeywordDocs.Module
