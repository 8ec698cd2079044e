/-!
# White Space

The characters that separate words in any script, line, paragraph and information separators included, and
their removal from the ends of a text.
-/

namespace KeywordDocs.Text

variable (s : String) (cs : List Char)

def numbersFrom (n : Nat) : List Char → List Nat
  | [] => []
  | c :: cs =>
    if c.isUpper then numbersFrom (26 * n + (c.toNat - 65)) cs
    else (26 * n + (c.toNat - 97)) :: numbersFrom 0 cs

def numbers : List Nat := numbersFrom 0 (s.toList.filter Char.isAlpha)

theorem numbers_ofList (cs : List Char) :
  numbers (String.ofList cs) = numbersFrom 0 (cs.filter Char.isAlpha) := by
  rw [numbers, String.toList_ofList]

def rangesFrom (last : Nat) : List Nat → List (Nat × Nat)
  | gap :: size :: rest => (last + gap, last + gap + size) :: rangesFrom (last + gap + size) rest
  | _ => []

def inRanges (ranges : List (Nat × Nat)) (c : Char) : Bool :=
  ranges.any fun r => r.1 ≤ c.toNat && c.toNat ≤ r.2

def blankRanges : List (Nat × Nat) :=
  [(9, 13), (28, 32), (133, 133), (160, 160), (5760, 5760), (8192, 8202), (8232, 8233),
    (8239, 8239), (8287, 8287), (12288, 12288)]

def isBlank (c : Char) : Bool := inRanges blankRanges c

def dropEndWhile {α : Type _} (p : α → Bool) (l : List α) : List α := (l.reverse.dropWhile p).reverse

def trimLeftChars : List Char := cs.dropWhile isBlank

def trimRightChars : List Char := dropEndWhile isBlank cs

def trimChars : List Char := trimRightChars (trimLeftChars cs)

def trimLeft : String := String.ofList (trimLeftChars s.toList)

def trimRight : String := String.ofList (trimRightChars s.toList)

def trim : String := String.ofList (trimChars s.toList)

def trimOf (p : Char → Bool) (s : String) : String := String.ofList (dropEndWhile p (s.toList.dropWhile p))

def trimRightOf (p : Char → Bool) (s : String) : String := String.ofList (dropEndWhile p s.toList)

def isBlankText : Bool := s.toList.all isBlank

end KeywordDocs.Text
