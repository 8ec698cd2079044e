/-!
# JSON Values

The values of configuration files and search indexes.
-/

namespace KeywordDocs

inductive Json where
  | null
  | bool (b : Bool)
  | int (n : Int)
  | float (x : Float)
  | str (s : String)
  | arr (items : List Json)
  | obj (members : List (String × Json))
  deriving Inhabited

namespace Json

variable (key : String)

def setMember (key : String) (value : Json) : List (String × Json) → List (String × Json)
  | [] => [(key, value)]
  | (k, v) :: rest => if k = key then (k, value) :: rest else (k, v) :: setMember key value rest

def member? (members : List (String × Json)) : Option Json := members.lookup key

def field? : Json → Option Json
  | .obj members => member? key members
  | _ => none

def setField (value : Json) : Json → Json
  | .obj members => .obj (setMember key value members)
  | other => other

def isTruthy : Json → Bool
  | .null => false
  | .bool b => b
  | .int n => n ≠ 0
  | .float x => x != 0.0
  | .str s => s ≠ ""
  | .arr items => !items.isEmpty
  | .obj members => !members.isEmpty

def text? : Json → Option String
  | .str s => some s
  | _ => none

end Json

end KeywordDocs
