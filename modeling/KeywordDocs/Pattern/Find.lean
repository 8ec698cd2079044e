import KeywordDocs.Fault
import KeywordDocs.Number.Written
import KeywordDocs.Text.Case

/-!
# Patterns

Patterns of text and how they match. Alternatives are tried in order: the first branch before the second, more
repetitions before fewer, or fewer before more for a reluctant repetition.
-/

namespace KeywordDocs

open Text

inductive CharTest where
  | any
  | range (low high : Char)
  | digit
  | word
  | blank
  | not (t : CharTest)
  | oneOf (ts : List CharTest)

namespace CharTest

mutual

def holds (c : Char) : CharTest → Bool
  | .any => c ≠ '\n'
  | .range low high => low ≤ c && c ≤ high
  | .digit => isDigit c
  | .word => isWord c
  | .blank => isBlank c
  | .not t => !holds c t
  | .oneOf ts => holdsOne c ts

def holdsOne (c : Char) : List CharTest → Bool
  | [] => false
  | t :: ts => holds c t || holdsOne c ts

end

mutual

def holdsFolded (cs : List Char) : CharTest → Bool
  | .not t => !holdsFolded cs t
  | .oneOf ts => holdsOneFolded cs ts
  | .any => cs.any fun c => holds c .any
  | .range low high => cs.any fun c => low ≤ c && c ≤ high
  | .digit => cs.any isDigit
  | .word => cs.any isWord
  | .blank => cs.any isBlank

def holdsOneFolded (cs : List Char) : List CharTest → Bool
  | [] => false
  | t :: ts => holdsFolded cs t || holdsOneFolded cs ts

end

def spellings (c : Char) : List Char :=
  let single : List Char → List Char
    | [d] => [d]
    | _ => []
  c :: (single (lowerChar c) ++ single (upperChar c))

def accepts (ignoresCase : Bool) (t : CharTest) (c : Char) : Bool :=
  if ignoresCase then holdsFolded (spellings c) t else holds c t

end CharTest

inductive Pattern where
  | nothing
  | char (t : CharTest)
  | seq (first second : Pattern)
  | either (first second : Pattern)
  /-- A group, with a number if what it matches is kept. -/
  | group (number : Option Nat) (p : Pattern)
  /-- At least and at most so many times; as often as possible if it is eager. -/
  | times (p : Pattern) (least : Nat) (most : Option Nat) (isEager : Bool)
  | start
  /-- The end of the text, or before a line feed at the end if one is allowed there. -/
  | finish (allowsNewline : Bool)
  /-- A place where a word starts or ends, or where none does. -/
  | boundary (isThere : Bool)
  | again (number : Nat)

structure Spot where
  before : Option Char := none
  rest : List Char
  position : Nat := 0
  groups : List (Nat × List Char) := []

namespace Spot

def next? (s : Spot) : Option (Char × Spot) :=
  match s.rest with
  | [] => none
  | c :: cs => some (c, { s with before := some c, rest := cs, position := s.position + 1 })

def skip? (ignoresCase : Bool) (s : Spot) : List Char → Option Spot
  | [] => some s
  | d :: ds =>
    match s.next? with
    | some (c, s) =>
      if CharTest.accepts ignoresCase (.range d d) c then s.skip? ignoresCase ds else none
    | none => none

def textTo (s t : Spot) : List Char := s.rest.take (t.position - s.position)

def isAtEnd (allowsNewline : Bool) (s : Spot) : Bool := s.rest.isEmpty || (allowsNewline && s.rest == ['\n'])

end Spot

namespace Pattern

abbrev Continuation := Spot → Option Spot

def repeatFrom (round : Continuation → Spot → Option Spot) (least : Nat) (most : Option Nat)
  (isEager : Bool) (k : Continuation) : Nat → Nat → Option Nat → Spot → Option Spot
  | 0, _, _, s => k s
  | fuel + 1, done, last, s =>
    let again := fun (_ : Unit) =>
      round (repeatFrom round least most isEager k fuel (done + 1) (some s.position)) s
    if done < least then again ()
    else if (most.all fun n => done < n) && last ≠ some s.position then
      if isEager then (again ()).orElse fun _ => k s
      else (k s).orElse again
    else k s

def matchFrom (ignoresCase : Bool) : Pattern → Continuation → Spot → Option Spot
  | .nothing, k, s => k s
  | .char t, k, s =>
    match s.next? with
    | some (c, s) => if t.accepts ignoresCase c then k s else none
    | none => none
  | .seq p q, k, s => p.matchFrom ignoresCase (q.matchFrom ignoresCase k) s
  | .either p q, k, s => (p.matchFrom ignoresCase k s).orElse fun _ => q.matchFrom ignoresCase k s
  | .group none p, k, s => p.matchFrom ignoresCase k s
  | .group (some n) p, k, s =>
    p.matchFrom ignoresCase (fun t => k { t with groups := (n, s.textTo t) :: t.groups }) s
  | .times p least most isEager, k, s =>
    repeatFrom (p.matchFrom ignoresCase) least most isEager k (least + s.rest.length + 1) 0 none s
  | .start, k, s => if s.before.isNone then k s else none
  | .finish allowsNewline, k, s => if s.isAtEnd allowsNewline then k s else none
  | .boundary isThere, k, s =>
    if atBoundary s.before s.rest.head? == isThere then k s else none
  | .again n, k, s =>
    match s.groups.lookup n with
    | some text => (s.skip? ignoresCase text).bind k
    | none => none

end Pattern

end KeywordDocs

namespace KeywordDocs.Pattern

variable (groups : Nat)

inductive TemplatePart where
  | literal (c : Char)
  | group (n : Nat)

def templateEscape? : Char → Option Char
  | 'a' => some (Char.ofNat 7)
  | 'b' => some (Char.ofNat 8)
  | 'f' => some (Char.ofNat 12)
  | 'n' => some '\n'
  | 'r' => some '\r'
  | 't' => some '\t'
  | 'v' => some (Char.ofNat 11)
  | '\\' => some '\\'
  | _ => none

def isOctal (c : Char) : Bool := '0' ≤ c && c ≤ '7'

def octalValue (cs : List Char) : Nat := cs.foldl (fun n c => n * 8 + (c.toNat - 48)) 0

def groupPart (groups n : Nat) : Except Fault TemplatePart :=
  if n ≤ groups then .ok (.group n) else .error .badPattern

def digitEscape : List Char → Except Fault (TemplatePart × Nat)
  | '0' :: a :: b :: _ =>
    if isOctal a && isOctal b then .ok (.literal (Char.ofNat (octalValue [a, b] % 256)), 3)
    else if isOctal a then .ok (.literal (Char.ofNat (octalValue [a])), 2)
    else .ok (.literal (Char.ofNat 0), 1)
  | ['0', a] =>
    if isOctal a then .ok (.literal (Char.ofNat (octalValue [a])), 2)
    else .ok (.literal (Char.ofNat 0), 1)
  | '0' :: [] => .ok (.literal (Char.ofNat 0), 1)
  | c :: a :: rest =>
    if !a.isDigit then do return (← groupPart groups (c.toNat - 48), 1)
    else match rest with
      | b :: _ =>
        if isOctal c && isOctal a && isOctal b then
          let n := octalValue [c, a, b]
          if n ≤ 255 then .ok (.literal (Char.ofNat n), 3) else .error .badPattern
        else do return (← groupPart groups (Number.natOfDigits [c, a]), 2)
      | [] => do return (← groupPart groups (Number.natOfDigits [c, a]), 2)
  | [c] => do return (← groupPart groups (c.toNat - 48), 1)
  | [] => .error .badPattern

def isGroupName : List Char → Bool
  | [] => false
  | c :: cs => (c.isAlpha || c == '_') && cs.all fun c => c.isAlphanum || c == '_'

def namedGroup (cs : List Char) : Except Fault (TemplatePart × Nat) :=
  match cs with
  | '<' :: rest =>
    match rest.span (· ≠ '>') with
    | (name, '>' :: _) =>
      if name.isEmpty then .error .badPattern
      else if isGroupName name then .error .outOfRange
      else if name.all Char.isDigit then do
        return (← groupPart groups (Number.natOfDigits name), name.length + 3)
      else .error .badPattern
    | _ => .error .badPattern
  | _ => .error .badPattern

def readTemplateFrom (groups : Nat) : Nat → List Char → Except Fault (List TemplatePart)
  | _, [] => .ok []
  | skip + 1, _ :: cs => readTemplateFrom groups skip cs
  | 0, c :: cs =>
    if c ≠ '\\' then do return .literal c :: (← readTemplateFrom groups 0 cs)
    else match cs with
      | [] => .error .badPattern
      | d :: rest =>
        if d = 'g' then do
          let (part, n) ← namedGroup groups rest
          return part :: (← readTemplateFrom groups n cs)
        else if d.isDigit then do
          let (part, n) ← digitEscape groups cs
          return part :: (← readTemplateFrom groups n cs)
        else match templateEscape? d with
          | some e => do return .literal e :: (← readTemplateFrom groups 1 cs)
          | none =>
            if d.isAlpha then .error .badPattern
            else do return .literal c :: .literal d :: (← readTemplateFrom groups 1 cs)

def readTemplate (template : String) : Except Fault (List TemplatePart) :=
  readTemplateFrom groups 0 template.toList

def expand (groups : List (List Char)) (parts : List TemplatePart) : List Char :=
  parts.flatMap fun
    | .literal c => [c]
    | .group n => groups.getD n []

end KeywordDocs.Pattern

namespace KeywordDocs

structure Matcher where
  pattern : Pattern
  groupCount : Nat := 0
  ignoresCase : Bool := false

structure Finding where
  start : Nat
  text : List Char
  groups : List (Option (List Char))
  after : Spot

namespace Matcher

variable (m : Matcher) (text : String)

def matchAt (advances : Bool) (s : Spot) : Option Finding := do
  let t ← m.pattern.matchFrom m.ignoresCase
    (fun t => if advances && t.position = s.position then none else some t) { s with groups := [] }
  return {
    start := s.position
    text := s.textTo t
    groups := (List.range m.groupCount).map fun i => t.groups.lookup (i + 1)
    after := { t with groups := [] } }

def matchStart : Option Finding := m.matchAt false { rest := text.toList }

def search (m : Matcher) : Bool → Option Char → Nat → List Char → Option Finding
  | advances, before, n, [] => m.matchAt advances { before, rest := [], position := n }
  | advances, before, n, c :: cs =>
    (m.matchAt advances { before, rest := c :: cs, position := n }).orElse fun _ =>
      m.search false (some c) (n + 1) cs

def allFrom (m : Matcher) : Nat → Bool → Spot → List Finding
  | 0, _, _ => []
  | fuel + 1, advances, s =>
    match m.search advances s.before s.position s.rest with
    | some f => f :: m.allFrom fuel f.text.isEmpty f.after
    | none => []

def all : List Finding := m.allFrom (2 * text.length + 2) false { rest := text.toList }

def replaceFrom (replacement : Finding → List Char) (n : Nat) (cs : List Char) :
  List Finding → List Char
  | [] => cs
  | f :: fs =>
    cs.take (f.start - n) ++ replacement f ++
      replaceFrom replacement f.after.position (cs.drop (f.after.position - n)) fs

def replaceAll (replacement : Finding → List Char) (text : String) : String :=
  String.ofList (replaceFrom replacement 0 text.toList (m.all text))

def replaceWith (template text : String) : Except Fault String := do
  let parts ← Pattern.readTemplate m.groupCount template
  return m.replaceAll (fun f => Pattern.expand (f.text :: f.groups.map (·.getD [])) parts) text

end Matcher

end KeywordDocs
