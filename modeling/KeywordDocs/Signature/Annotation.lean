import KeywordDocs.Fault
import KeywordDocs.Source.Expr.Printer

/-!
# Signatures as Text

How the type of a parameter is shown. Methods and plain functions have a printer each.
-/

namespace KeywordDocs.Signature

open Source Text

mutual

def methodType : Expr → String
  | .name id => id
  | .constant v _ => v.display
  | .subscript value (.tuple items) => methodType value ++ "[" ++ join ", " (methodTypes items) ++ "]"
  | .subscript value index => methodType value ++ "[" ++ methodType index ++ "]"
  | .binary .bitOr left right => methodType left ++ " | " ++ methodType right
  | e => e.print.getD "Any"

def methodTypes : List Expr → List String
  | [] => []
  | e :: rest => methodType e :: methodTypes rest

end

mutual

def functionTypeAt (inSubscript : Bool) : Expr → Except Fault String
  | .name id => .ok id
  | .constant v _ => .ok v.display
  | .subscript (.name id) index => do
    return id ++ "[" ++ (← functionTypeAt true index) ++ "]"
  | .subscript (.attribute (.name id) field) index => do
    return id ++ "." ++ field ++ "[" ++ (← functionTypeAt true index) ++ "]"
  | .attribute (.name id) field => .ok (id ++ "." ++ field)
  | .binary .bitOr left right => do
    let l ← functionTypeAt false left
    let r ← functionTypeAt false right
    return l ++ " | " ++ r
  | .binary .. => .error .endless
  | .tuple items =>
    if inSubscript then do return join ", " (← functionTypes items) else .ok "Any"
  | _ => .ok "Any"

def functionTypes : List Expr → Except Fault (List String)
  | [] => .ok []
  | e :: rest => do
    let t ← functionTypeAt false e
    return t :: (← functionTypes rest)

end

def functionType (e : Expr) : Except Fault String := functionTypeAt false e

def defaultText : Expr → Option String
  | .constant (.str s) _ => some ("\"" ++ s ++ "\"")
  | .constant v _ => some v.literal
  | .name id => some id
  | .list _ => some "[]"
  | .dict _ => some "\x7b\x7d"
  | .tuple _ => some "()"
  | .call (.name id) _ _ => some (id ++ "()")
  | .call (.attribute (.name id) field) _ _ => some (id ++ "." ++ field ++ "()")
  | .call .. => none
  | .attribute (.name id) field => some (id ++ "." ++ field)
  | .attribute .. => none
  | _ => some "..."

end KeywordDocs.Signature

namespace KeywordDocs.Source

def Parameters.defaultAt? (p : Parameters) (i : Nat) : Option Expr :=
  if p.positional.length ≤ i + p.defaults.length then
    p.defaults[i + p.defaults.length - p.positional.length]?
  else none

end KeywordDocs.Source
