/-!
# Substrings

Finding, counting, replacing and splitting at a fixed piece of text.
-/

namespace KeywordDocs.Text

variable (s : String)

def dropPrefix? : List Char → List Char → Option (List Char)
  | [], cs => some cs
  | _ :: _, [] => none
  | p :: ps, c :: cs => if p = c then dropPrefix? ps cs else none

def splitAtFirst (sep : List Char) : List Char → Option (List Char × List Char)
  | [] => (dropPrefix? sep []).map fun rest => ([], rest)
  | c :: cs =>
    match dropPrefix? sep (c :: cs) with
    | some rest => some ([], rest)
    | none => (splitAtFirst sep cs).map fun (before, rest) => (c :: before, rest)

def splitFrom (sep : List Char) : Nat → List Char → List Char → List (List Char)
  | _, acc, [] => [acc.reverse]
  | covered + 1, acc, _ :: cs => splitFrom sep covered acc cs
  | 0, acc, c :: cs =>
    if sep.isPrefixOf (c :: cs) then acc.reverse :: splitFrom sep (sep.length - 1) [] cs
    else splitFrom sep 0 (c :: acc) cs

def splitChars (sep cs : List Char) : List (List Char) := splitFrom sep 0 [] cs

def splitAtChar (sep : Char) : List Char → List (List Char)
  | [] => [[]]
  | c :: cs =>
    if c = sep then [] :: splitAtChar sep cs
    else match splitAtChar sep cs with
      | [] => [[c]]
      | first :: rest => (c :: first) :: rest

def splitOn (sep s : String) : List String := (splitChars sep.toList s.toList).map String.ofList

def lines : List String := (splitAtChar '\n' s.toList).map String.ofList

def uniformLines : List Char → List Char
  | '\r' :: '\n' :: cs => '\n' :: uniformLines cs
  | '\r' :: cs => '\n' :: uniformLines cs
  | c :: cs => c :: uniformLines cs
  | [] => []

def uniformNewlines : String := String.ofList (uniformLines s.toList)

def join (sep : String) : List String → String
  | [] => ""
  | [s] => s
  | s :: rest => s ++ sep ++ join sep rest

def unlines (ls : List String) : String := join "\n" ls

def joinedLines (separator : Char) (s : String) : List Char :=
  s.toList.map fun c => if c = '\n' then separator else c

def listed (separator : Char) (s : String) : List String :=
  (splitAtChar separator (joinedLines separator s)).map String.ofList

def replaceFrom (old new : List Char) : Nat → List Char → List Char
  | _, [] => []
  | covered + 1, _ :: cs => replaceFrom old new covered cs
  | 0, c :: cs =>
    if old.isPrefixOf (c :: cs) then new ++ replaceFrom old new (old.length - 1) cs
    else c :: replaceFrom old new 0 cs

def replaceChars (old new cs : List Char) : List Char :=
  if old.isEmpty then new ++ cs.flatMap (· :: new) else replaceFrom old new 0 cs

def replace (old new s : String) : String := String.ofList (replaceChars old.toList new.toList s.toList)

def untabbed : String := replace "\t" "    " s

def containsChars (part : List Char) : List Char → Bool
  | [] => part.isEmpty
  | c :: cs => part.isPrefixOf (c :: cs) || containsChars part cs

def contains (part s : String) : Bool := containsChars part.toList s.toList

def startsWith (start s : String) : Bool := start.toList.isPrefixOf s.toList

def endsWith (ending s : String) : Bool := ending.toList.isSuffixOf s.toList

def countFrom (part : List Char) : Nat → List Char → Nat
  | _, [] => 0
  | covered + 1, _ :: cs => countFrom part covered cs
  | 0, c :: cs =>
    if part.isPrefixOf (c :: cs) then countFrom part (part.length - 1) cs + 1
    else countFrom part 0 cs

def count (part s : String) : Nat :=
  if part.isEmpty then s.length + 1 else countFrom part.toList 0 s.toList

def drop (n : Nat) (s : String) : String := String.ofList (s.toList.drop n)

def take (n : Nat) (s : String) : String := String.ofList (s.toList.take n)

end KeywordDocs.Text
