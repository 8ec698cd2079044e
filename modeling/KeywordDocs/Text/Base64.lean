import KeywordDocs.Fault

/-!
# Base64

Bytes as text: three bytes are four characters of six bits each, and one or two bytes at the end are
filled up with equals signs.
-/

namespace KeywordDocs.Base64

def sign (n : Nat) : Char :=
  if n < 26 then Char.ofNat (65 + n)
  else if n < 52 then Char.ofNat (71 + n)
  else if n < 62 then Char.ofNat (n - 4)
  else if n = 62 then '+'
  else '/'

def bits? (c : Char) : Option Nat :=
  if 'A' ≤ c && c ≤ 'Z' then some (c.toNat - 65)
  else if 'a' ≤ c && c ≤ 'z' then some (c.toNat - 71)
  else if '0' ≤ c && c ≤ '9' then some (c.toNat + 4)
  else if c = '+' then some 62
  else if c = '/' then some 63
  else none

def encodeBytes : List UInt8 → List Char
  | a :: b :: c :: rest =>
    let n := a.toNat * 65536 + b.toNat * 256 + c.toNat
    sign (n / 262144) :: sign (n / 4096 % 64) :: sign (n / 64 % 64) :: sign (n % 64) ::
      encodeBytes rest
  | [a, b] =>
    let n := a.toNat * 1024 + b.toNat * 4
    [sign (n / 4096), sign (n / 64 % 64), sign (n % 64), '=']
  | [a] => [sign (a.toNat / 4), sign (a.toNat % 4 * 16), '=', '=']
  | [] => []

def encode (bs : List UInt8) : String := String.ofList (encodeBytes bs)

def decodeFrom (place left pads : Nat) : List Char → Except Fault (List UInt8)
  | [] => if place = 0 then .ok [] else .error .badBase64
  | '=' :: cs =>
    if 2 ≤ place then
      if 4 ≤ place + (pads + 1) then .ok [] else decodeFrom place left (pads + 1) cs
    else decodeFrom place left pads cs
  | c :: cs =>
    match bits? c with
    | none => decodeFrom place left pads cs
    | some n =>
      match place with
      | 0 => decodeFrom 1 n 0 cs
      | 1 => do return UInt8.ofNat (left * 4 + n / 16) :: (← decodeFrom 2 (n % 16) 0 cs)
      | 2 => do return UInt8.ofNat (left * 16 + n / 4) :: (← decodeFrom 3 (n % 4) 0 cs)
      | _ => do return UInt8.ofNat (left * 64 + n) :: (← decodeFrom 0 0 0 cs)

def decode (s : String) : Except Fault (List UInt8) :=
  if s.toList.all fun c => c.toNat < 128 then decodeFrom 0 0 0 s.toList else .error .badValue

end KeywordDocs.Base64
