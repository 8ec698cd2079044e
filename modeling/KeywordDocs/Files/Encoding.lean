import KeywordDocs.Fault
import KeywordDocs.Text.Case
import KeywordDocs.Text.Search

/-!
# Encodings

Text as bytes in the encodings that files come in.
-/

namespace KeywordDocs.Files

open Text

inductive Encoding where
  | ascii
  | latin1
  | utf8 (hasMark : Bool)
  /-- UTF-16 with the low byte first or last; with a mark at the start if it is to be recognised. -/
  | utf16 (isLowFirst hasMark : Bool)

namespace Encoding

def plainName (name : String) : String := lower (String.ofList (name.toList.filter fun c => c.isAlphanum))

def named? (name : String) : Option Encoding :=
  match plainName name with
  | "utf8" | "u8" | "utf" | "cp65001" => some (.utf8 false)
  | "utf8sig" => some (.utf8 true)
  | "ascii" | "usascii" | "646" | "ansix341968" | "ansix341986" | "iso646us" | "us" | "cp367"
    | "ibm367" | "iso646irv1991" | "isoir6" => some .ascii
  | "latin1" | "latin" | "l1" | "iso88591" | "88591" | "8859" | "iso8859" | "cp819" | "ibm819"
    | "iso885911987" | "isoir100" => some .latin1
  | "utf16" | "u16" => some (.utf16 true true)
  | "utf16le" | "unicodelittleunmarked" => some (.utf16 true false)
  | "utf16be" | "unicodebigunmarked" => some (.utf16 false false)
  | _ => none

def encodeNarrow (bound : Nat) (cs : List Char) : Except Fault (List UInt8) :=
  cs.mapM fun c => if c.toNat < bound then .ok (UInt8.ofNat c.toNat) else .error .unencodable

def units (c : Char) : List Nat :=
  let n := c.toNat
  if n < 0x10000 then [n]
  else [0xd800 + (n - 0x10000) / 0x400, 0xdc00 + (n - 0x10000) % 0x400]

def unitBytes (isLowFirst : Bool) (n : Nat) : List UInt8 :=
  let bytes := [UInt8.ofNat (n % 256), UInt8.ofNat (n / 256)]
  if isLowFirst then bytes else bytes.reverse

def ofUnits : List Nat → Except Fault (List Char)
  | [] => .ok []
  | n :: rest =>
    if n < 0xd800 || 0xe000 ≤ n then do return Char.ofNat n :: (← ofUnits rest)
    else if 0xdc00 ≤ n then .error .undecodable
    else match rest with
      | m :: rest =>
        if 0xdc00 ≤ m && m < 0xe000 then do
          return Char.ofNat (0x10000 + (n - 0xd800) * 0x400 + (m - 0xdc00)) :: (← ofUnits rest)
        else .error .undecodable
      | [] => .error .undecodable

def unitsOf (isLowFirst : Bool) : List UInt8 → Except Fault (List Nat)
  | [] => .ok []
  | [_] => .error .undecodable
  | a :: b :: rest => do
    let n := if isLowFirst then b.toNat * 256 + a.toNat else a.toNat * 256 + b.toNat
    return n :: (← unitsOf isLowFirst rest)

def encode (e : Encoding) (s : String) : Except Fault (List UInt8) :=
  match e with
  | .ascii => encodeNarrow 128 s.toList
  | .latin1 => encodeNarrow 256 s.toList
  | .utf8 hasMark => .ok ((if hasMark then [0xef, 0xbb, 0xbf] else []) ++ s.toUTF8.toList)
  | .utf16 isLowFirst hasMark =>
    .ok ((if hasMark then unitBytes isLowFirst 0xfeff else []) ++
      (s.toList.flatMap units).flatMap (unitBytes isLowFirst))

def decodeUtf8 (bs : List UInt8) : Except Fault String :=
  match String.fromUTF8? (ByteArray.mk bs.toArray) with
  | some s => .ok s
  | none => .error .undecodable

def decode (e : Encoding) (bs : List UInt8) : Except Fault String :=
  match e with
  | .ascii =>
    if bs.all (· < 128) then .ok (String.ofList (bs.map fun b => Char.ofNat b.toNat))
    else .error .undecodable
  | .latin1 => .ok (String.ofList (bs.map fun b => Char.ofNat b.toNat))
  | .utf8 hasMark =>
    match hasMark, bs with
    | true, 0xef :: 0xbb :: 0xbf :: rest => decodeUtf8 rest
    | _, _ => decodeUtf8 bs
  | .utf16 isLowFirst hasMark => do
    let (isLowFirst, bs) := match hasMark, bs with
      | true, 0xff :: 0xfe :: rest => (true, rest)
      | true, 0xfe :: 0xff :: rest => (false, rest)
      | _, _ => (isLowFirst, bs)
    return String.ofList (← ofUnits (← unitsOf isLowFirst bs))

end Encoding

end KeywordDocs.Files
