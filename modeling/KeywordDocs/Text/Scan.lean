/-!
# Scanning

Finding the matches of a pattern in a text, from left to right and without overlap.
-/

namespace KeywordDocs.Text

universe u

variable {α : Type u}

abbrev Recogniser (α : Type u) := Option Char → List Char → Option (α × Nat)

variable (r : Recogniser α) (cs : List Char)

inductive Piece (α : Type u) where
  | plain (c : Char)
  | found (a : α)

def scanFrom (r : Recogniser α) : Option Char → Nat → List Char → List (Piece α)
  | _, _, [] => []
  | _, covered + 1, c :: cs => scanFrom r (some c) covered cs
  | before, 0, c :: cs =>
    match r before (c :: cs) with
    | none => .plain c :: scanFrom r (some c) 0 cs
    | some (a, n) => .found a :: scanFrom r (some c) (n - 1) cs

def scan : List (Piece α) := scanFrom r none 0 cs

def finds : List α :=
  (scan r cs).filterMap fun
    | .plain _ => none
    | .found a => some a

def Piece.expand (f : α → List Char) : Piece α → List Char
  | .plain c => [c]
  | .found a => f a

def replaceFinds (r : Recogniser (List Char)) (cs : List Char) : List Char :=
  (scan r cs).flatMap (Piece.expand id)

def stretches : List Char → List (Piece α) → List (List Char ⊕ α)
  | acc, [] => [.inl acc.reverse]
  | acc, .plain c :: ps => stretches (c :: acc) ps
  | acc, .found a :: ps => .inl acc.reverse :: .inr a :: stretches [] ps

def pieces : List (List Char ⊕ α) := stretches [] (scan r cs)

end KeywordDocs.Text
