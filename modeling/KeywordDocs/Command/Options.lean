import KeywordDocs.Number.Written
import KeywordDocs.Text.Quoted
import KeywordDocs.Text.Search

/-!
# Options

What a user asks for on the command line. Every option has a long name and some have a short one as
well.
-/

namespace KeywordDocs.Command

open Text

variable (word : String)

structure Options where
  input : Option String := none
  output : Option String := none
  format : String := "html"
  config : Option String := none
  multi : Bool := false
  folder : Option String := none
  parallel : Bool := false
  workers : Option Int := none
  dashboard : Bool := false
  serve : Bool := false
  host : String := "localhost"
  port : Int := 8000
  deriving DecidableEq

inductive Effect where
  | help
  | switch (set : Options → Options)
  | text (set : String → Options → Options)
  | number (set : Int → Options → Options)
  | oneOf (values : List String) (set : String → Options → Options)

structure Choice where
  names : List String
  effect : Effect

def choices : List Choice :=
  [⟨["-h", "--help"], .help⟩,
    ⟨["-o", "--output"], .text fun s o => { o with output := some s }⟩,
    ⟨["-f", "--format"], .oneOf ["markdown", "html"] fun s o => { o with format := s }⟩,
    ⟨["-c", "--config"], .text fun s o => { o with config := some s }⟩,
    ⟨["--multi-lib"], .switch fun o => { o with multi := true }⟩,
    ⟨["-d", "--dir"], .text fun s o => { o with folder := some s }⟩,
    ⟨["--parallel"], .switch fun o => { o with parallel := true }⟩,
    ⟨["--workers"], .number fun n o => { o with workers := some n }⟩,
    ⟨["--dashboard"], .switch fun o => { o with dashboard := true }⟩,
    ⟨["--serve"], .switch fun o => { o with serve := true }⟩,
    ⟨["--host"], .text fun s o => { o with host := s }⟩,
    ⟨["--port"], .number fun n o => { o with port := n }⟩]

inductive Refusal where
  | help
  | ambiguous (word : String) (names : List String)
  | noValue (names : List String)
  | unwantedValue (names : List String) (value : String)
  | notNumber (names : List String) (value : String)
  | notAllowed (names : List String) (value : String) (values : List String)
  | unknown (words : List String)
  deriving DecidableEq

def Refusal.about (names : List String) (what : String) : String :=
  "argument " ++ join "/" names ++ ": " ++ what

def Refusal.message : Refusal → String
  | .help => ""
  | .ambiguous word names => "ambiguous option: " ++ word ++ " could match " ++ join ", " names
  | .noValue names => about names "expected one argument"
  | .unwantedValue names value => about names ("ignored explicit argument " ++ quote value)
  | .notNumber names value => about names ("invalid int value: " ++ quote value)
  | .notAllowed names value values =>
    about names ("invalid choice: " ++ quote value ++ " (choose from " ++
      join ", " (values.map quote) ++ ")")
  | .unknown words => "unrecognized arguments: " ++ join " " words

inductive Word where
  | value (s : String)
  | mark
  | option (choice : Choice) (name : String) (value : Option String)
  | stray (s : String)

def named : List (String × Choice) := choices.flatMap fun c => c.names.map fun n => (n, c)

def splitValue : String × Option String :=
  match splitAtFirst ['='] word.toList with
  | some (name, value) => (String.ofList name, some (String.ofList value))
  | none => (word, none)

def meanings : List (String × Choice × Option String) :=
  if startsWith "--" word then
    let (start, value) := splitValue word
    (named.filter fun n => startsWith start n.1).map fun n => (n.1, n.2, value)
  else
    named.filterMap fun n =>
      if n.1 = take 2 word then some (n.1, n.2, some (drop 2 word))
      else if startsWith word n.1 then some (n.1, n.2, none)
      else none

def isNegativeNumber : Bool :=
  match word.toList with
  | '-' :: cs =>
    match cs.span isDigit with
    | (whole, []) => !whole.isEmpty
    | (_, '.' :: places) => !places.isEmpty && places.all isDigit
    | _ => false
  | _ => false

def classify : Except Refusal Word :=
  if !startsWith "-" word || word = "-" then .ok (.value word)
  else match named.lookup word with
    | some c => .ok (.option c word none)
    | none =>
      let (start, value) := splitValue word
      match value, named.lookup start with
      | some v, some c => .ok (.option c start (some v))
      | _, _ =>
        match meanings word with
        | [(name, c, v)] => .ok (.option c name v)
        | [] =>
          if isNegativeNumber word || contains " " word then .ok (.value word)
          else .ok (.stray word)
        | several => .error (.ambiguous word (several.map Prod.fst))

def classifyAll : List String → Except Refusal (List Word)
  | [] => .ok []
  | word :: rest =>
    if word = "--" then .ok (.mark :: rest.map .value)
    else do
      let w ← classify word
      return w :: (← classifyAll rest)

structure Reading where
  options : Options := {}
  pending : Option Choice := none
  awaitsInput : Bool := true
  hasJustInput : Bool := false
  unknown : List String := []

def Choice.apply (c : Choice) (value : String) (o : Options) : Except Refusal Options :=
  match c.effect with
  | .text set => .ok (set value o)
  | .number set =>
    match Number.readInt? value with
    | some n => .ok (set n o)
    | none => .error (.notNumber c.names value)
  | .oneOf values set =>
    if values.contains value then .ok (set value o)
    else .error (.notAllowed c.names value values)
  | .help | .switch _ => .error (.unwantedValue c.names value)

def applyJoined (c : Choice) (isShort : Bool) : List Char → Options → Except Refusal Options
  | [], o =>
    match c.effect with
    | .help => .error .help
    | .switch set => .ok (set o)
    | _ => .error (.noValue c.names)
  | ch :: rest, o =>
    match c.effect, isShort with
    | .help, true =>
      match named.lookup (String.ofList ['-', ch]) with
      | none => .error (.unwantedValue c.names (String.ofList (ch :: rest)))
      | some _ => .error .help
    | _, _ => c.apply (String.ofList (ch :: rest)) o

def readOption (r : Reading) (c : Choice) (name : String) : Option String → Except Refusal Reading
  | some value => do
    match c.effect with
    | .help | .switch _ =>
      if value.isEmpty then .error (.unwantedValue c.names value)
      else
        return { r with
          options := ← applyJoined c (!startsWith "--" name) value.toList r.options }
    | _ => return { r with options := ← c.apply value r.options }
  | none =>
    match c.effect with
    | .help => .error .help
    | .switch set => .ok { r with options := set r.options }
    | _ => .ok { r with pending := some c }

def readWord (r : Reading) (w : Word) : Except Refusal Reading :=
  match r.pending, w with
  | some c, .value v => do return { r with pending := none, options := ← c.apply v r.options }
  | some c, _ => .error (.noValue c.names)
  | none, .option c name value => readOption { r with hasJustInput := false } c name value
  | none, .stray s => .ok { r with unknown := r.unknown ++ [s], hasJustInput := false }
  | none, .value s =>
    if r.awaitsInput then
      .ok { r with
        options := { r.options with input := some s }, awaitsInput := false, hasJustInput := true }
    else .ok { r with unknown := r.unknown ++ [s], hasJustInput := false }
  | none, .mark =>
    if r.awaitsInput || r.hasJustInput then .ok { r with hasJustInput := false }
    else .ok { r with unknown := r.unknown ++ ["--"] }

def readOptions (words : List String) : Except Refusal Options := do
  let r ← (← classifyAll words).foldlM readWord {}
  match r.pending with
  | some c => .error (.noValue c.names)
  | none => if r.unknown.isEmpty then return r.options else .error (.unknown r.unknown)

end KeywordDocs.Command
