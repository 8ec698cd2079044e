import KeywordDocs.Fault
import KeywordDocs.Value.Shown

/-!
# Tokens and Parsers

Libraries are written in Python. A source is a list of tokens, each with the line it starts on.
-/

namespace KeywordDocs.Source

variable {α : Type} (s : String)

inductive TextLiteral where
  /-- A text; it may carry the old mark for texts. -/
  | text (s : String) (marked : Bool)
  | bytes (bs : List UInt8)
  /-- A text with fields, as it is written; in a raw one backslashes are ordinary characters. -/
  | template (raw : Bool) (body : List Char)

inductive Token where
  | word (s : String)
  | number (v : Value)
  | literal (t : TextLiteral)
  | mark (s : String)
  | newline
  | indent
  | dedent
  | finish
  | fault (f : Fault)

structure Lexeme where
  token : Token
  line : Nat

def reservedWords : List String :=
  ["False", "None", "True", "and", "as", "assert", "async", "await", "break", "class", "continue",
   "def", "del", "elif", "else", "except", "finally", "for", "from", "global", "if", "import",
   "in", "is", "lambda", "nonlocal", "not", "or", "pass", "raise", "return", "try", "while", "with",
   "yield"]

def isReserved : Bool := reservedWords.contains s

def longMarks : List String :=
  ["**=", "//=", ">>=", "<<=", "...", "!=", "%=", "&=", "**", "*=", "+=", "-=", "->", "//", "/=",
   ":=", "<<", "<=", "<>", "==", ">=", ">>", "@=", "^=", "|="]

structure Failure where
  fault : Fault
  remaining : Nat

abbrev Parser := StateT (List Lexeme) (Except Failure)

namespace Parser

def faultAt : Token → Fault
  | .fault f => f
  | .indent | .dedent => .badIndentation
  | _ => .malformedSource

def peek : Parser Token := do
  match ← get with
  | t :: _ => return t.token
  | [] => return .finish

def peekSecond : Parser Token := do
  match ← get with
  | _ :: t :: _ => return t.token
  | _ => return .finish

def line : Parser Nat := do
  match ← get with
  | t :: _ => return t.line
  | [] => return 0

def advance : Parser Unit := modify (List.drop 1)

def miss : Parser α := do
  let left ← get
  throw ⟨faultAt (← peek), left.length⟩

def missWith (f : Fault) : Parser α := do
  let left ← get
  let broken := left.any fun t => match t.token with
    | .fault .malformedSource => true
    | _ => false
  throw ⟨if broken then .malformedSource else f, left.length⟩

def isSign : Token → Bool
  | .mark m => m == s
  | .word w => w == s
  | _ => false

def sees : Parser Bool := do
  return isSign s (← peek)

def eat? : Parser Bool := do
  if ← sees s then
    advance
    return true
  else return false

def eat : Parser Unit := do
  if ← eat? s then return () else miss

def identifier : Parser String := do
  match ← peek with
  | .word w =>
    if isReserved w then miss
    else
      advance
      return w
  | _ => miss

def seesIdentifier : Parser Bool := do
  match ← peek with
  | .word w => return !isReserved w
  | _ => return false

def repeatFor (p : Parser (Option α)) : Nat → Parser (List α)
  | 0 => return []
  | n + 1 => do
    match ← p with
    | none => return []
    | some a =>
      let rest ← repeatFor p n
      return a :: rest

def foldFor (p : α → Parser (Option α)) : Nat → α → Parser α
  | 0, a => return a
  | n + 1, a => do
    match ← p a with
    | none => return a
    | some b => foldFor p n b

def commaTail (starts : Parser Bool) (item : Parser α) : Nat → Parser (List α)
  | 0 => return []
  | n + 1 => do
    if !(← eat? ",") then return []
    if !(← starts) then return []
    let a ← item
    let rest ← commaTail starts item n
    return a :: rest

def either (p q : Parser α) : Parser α := fun ts =>
  match p ts with
  | .ok r => .ok r
  | .error e =>
    match q ts with
    | .ok r => .ok r
    | .error f => .error (if f.remaining ≤ e.remaining then f else e)

end Parser

end KeywordDocs.Source
