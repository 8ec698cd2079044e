import KeywordDocs.Text.Quoted

/-!
# Digests

Digests work on blocks of equal size. A message is filled up with one bit, zeros and its own length in bits,
so no two messages give the same blocks.
-/

namespace KeywordDocs.Digest

variable (message bs : List UInt8) (i : Nat)

def lowBytes : Nat → Nat → List UInt8
  | 0, _ => []
  | width + 1, n => UInt8.ofNat (n % 256) :: lowBytes width (n / 256)

def highBytes (width n : Nat) : List UInt8 := (lowBytes width n).reverse

def ofLowBytes : Nat := bs.foldr (fun b n => n * 256 + b.toNat) 0

def ofHighBytes : Nat := bs.foldl (fun n b => n * 256 + b.toNat) 0

def fill (size width : Nat) (length : Nat → List UInt8) (message : List UInt8) : List UInt8 :=
  let n := message.length
  let zeros := (size - (n + 1 + width) % size) % size
  message ++ 0x80 :: List.replicate zeros 0 ++ length (8 * n)

def chunks {α : Type} (size : Nat) : Nat → List α → List (List α)
  | 0, _ => []
  | count + 1, l => l.take size :: chunks size count (l.drop size)

def blocks {α : Type} (size : Nat) (l : List α) : List (List α) :=
  chunks size ((l.length + size - 1) / size) l

def hex : String := String.ofList (bs.flatMap fun b => Text.hexDigits 2 b.toNat)

def md5Constants : Array UInt32 :=
  ((List.range 64).map fun i => ((i + 1).toFloat.sin.abs * 4294967296).toUInt32).toArray

def md5Turns : Array UInt32 := #[7, 12, 17, 22, 5, 9, 14, 20, 4, 11, 16, 23, 6, 10, 15, 21]

def turnLeft (x n : UInt32) : UInt32 := (x <<< n) ||| (x >>> (32 - n))

structure Md5State where
  a : UInt32 := 0x67452301
  b : UInt32 := 0xefcdab89
  c : UInt32 := 0x98badcfe
  d : UInt32 := 0x10325476

def md5Mix (b c d : UInt32) : UInt32 × Nat :=
  match i / 16 with
  | 0 => ((b &&& c) ||| (~~~b &&& d), i)
  | 1 => ((d &&& b) ||| (~~~d &&& c), (5 * i + 1) % 16)
  | 2 => (b ^^^ c ^^^ d, (3 * i + 5) % 16)
  | _ => (c ^^^ (b ||| ~~~d), 7 * i % 16)

def md5Round (words : Array UInt32) (s : Md5State) (i : Nat) : Md5State :=
  let (mixed, word) := md5Mix i s.b s.c s.d
  let sum := s.a + mixed + md5Constants.getD i 0 + words.getD word 0
  { a := s.d, b := s.b + turnLeft sum (md5Turns.getD (4 * (i / 16) + i % 4) 0), c := s.b, d := s.c }

def md5Block (s : Md5State) (block : List UInt8) : Md5State :=
  let words := ((blocks 4 block).map fun bs => UInt32.ofNat (ofLowBytes bs)).toArray
  let t := (List.range 64).foldl (md5Round words) s
  { a := s.a + t.a, b := s.b + t.b, c := s.c + t.c, d := s.d + t.d }

def md5 : List UInt8 :=
  let s := (blocks 64 (fill 64 8 (lowBytes 8) message)).foldl md5Block {}
  [s.a, s.b, s.c, s.d].flatMap fun x => lowBytes 4 x.toNat

def sha1Extend : Nat → List UInt32 → List UInt32
  | 0, ws => ws
  | n + 1, ws =>
    let w := turnLeft (ws.getD 2 0 ^^^ ws.getD 7 0 ^^^ ws.getD 13 0 ^^^ ws.getD 15 0) 1
    sha1Extend n (w :: ws)

structure Sha1State where
  a : UInt32 := 0x67452301
  b : UInt32 := 0xefcdab89
  c : UInt32 := 0x98badcfe
  d : UInt32 := 0x10325476
  e : UInt32 := 0xc3d2e1f0

def sha1Mix (b c d : UInt32) : UInt32 × UInt32 :=
  match i / 20 with
  | 0 => ((b &&& c) ||| (~~~b &&& d), 0x5a827999)
  | 1 => (b ^^^ c ^^^ d, 0x6ed9eba1)
  | 2 => ((b &&& c) ||| (b &&& d) ||| (c &&& d), 0x8f1bbcdc)
  | _ => (b ^^^ c ^^^ d, 0xca62c1d6)

def sha1Round (s : Sha1State) (i : Nat × UInt32) : Sha1State :=
  let (mixed, constant) := sha1Mix i.1 s.b s.c s.d
  { a := turnLeft s.a 5 + mixed + s.e + constant + i.2, b := s.a, c := turnLeft s.b 30, d := s.c,
    e := s.d }

def sha1Block (s : Sha1State) (block : List UInt8) : Sha1State :=
  let words := (blocks 4 block).map fun bs => UInt32.ofNat (ofHighBytes bs)
  let schedule := (sha1Extend 64 words.reverse).reverse
  let t := ((List.range 80).zip schedule).foldl sha1Round s
  { a := s.a + t.a, b := s.b + t.b, c := s.c + t.c, d := s.d + t.d, e := s.e + t.e }

def sha1 : List UInt8 :=
  let s := (blocks 64 (fill 64 8 (highBytes 8) message)).foldl sha1Block {}
  [s.a, s.b, s.c, s.d, s.e].flatMap fun x => highBytes 4 x.toNat

def primes : List Nat :=
  (List.range 410).filter fun n => 2 ≤ n && (List.range n).all fun d => d < 2 || n % d ≠ 0

def rootBits (w degree n : Nat) : BitVec w :=
  let bits := (List.range (w + 8)).reverse
  .ofNat w (bits.foldl (fun r i =>
    let next := r + Nat.pow 2 i
    if Nat.pow next degree ≤ n * Nat.pow 2 (degree * w) then next else r) 0)

structure Turns where
  early : Nat × Nat × Nat
  late : Nat × Nat × Nat
  first : Nat × Nat × Nat
  fifth : Nat × Nat × Nat

structure Sha2 (w : Nat) where
  turns : Turns
  constants : List (BitVec w)

section Sha2

variable {w : Nat}

def turned (x : BitVec w) (n : Nat × Nat × Nat) : BitVec w :=
  x.rotateRight n.1 ^^^ x.rotateRight n.2.1 ^^^ x.rotateRight n.2.2

def shifted (x : BitVec w) (n : Nat × Nat × Nat) : BitVec w :=
  x.rotateRight n.1 ^^^ x.rotateRight n.2.1 ^^^ (x >>> n.2.2)

def extend (t : Turns) : Nat → List (BitVec w) → List (BitVec w)
  | 0, ws => ws
  | n + 1, ws =>
    let s := shifted (ws.getD 14 0) t.early
    extend t n ((ws.getD 15 0 + s + ws.getD 6 0 + shifted (ws.getD 1 0) t.late) :: ws)

structure Sha2State (w : Nat) where
  a : BitVec w
  b : BitVec w
  c : BitVec w
  d : BitVec w
  e : BitVec w
  f : BitVec w
  g : BitVec w
  h : BitVec w

def sha2Round (t : Turns) (s : Sha2State w) (i : BitVec w × BitVec w) : Sha2State w :=
  let choice := (s.e &&& s.f) ^^^ (~~~s.e &&& s.g)
  let x := s.h + turned s.e t.fifth + choice + i.1 + i.2
  let majority := (s.a &&& s.b) ^^^ (s.a &&& s.c) ^^^ (s.b &&& s.c)
  { a := x + turned s.a t.first + majority, b := s.a, c := s.b, d := s.c, e := s.d + x, f := s.e,
    g := s.f, h := s.g }

def sha2Block (k : Sha2 w) (s : Sha2State w) (block : List UInt8) : Sha2State w :=
  let words := (blocks (w / 8) block).map fun bs => BitVec.ofNat w (ofHighBytes bs)
  let schedule := (extend k.turns (k.constants.length - 16) words.reverse).reverse
  let t := (k.constants.zip schedule).foldl (sha2Round k.turns) s
  { a := s.a + t.a, b := s.b + t.b, c := s.c + t.c, d := s.d + t.d, e := s.e + t.e, f := s.f + t.f,
    g := s.g + t.g, h := s.h + t.h }

def sha2From (k : Sha2 w) (start : Sha2State w) (message : List UInt8) : List UInt8 :=
  let s := (blocks (2 * w) (fill (2 * w) (w / 4) (highBytes (w / 4)) message)).foldl (sha2Block k) start
  [s.a, s.b, s.c, s.d, s.e, s.f, s.g, s.h].flatMap fun x => highBytes (w / 8) x.toNat

end Sha2

def narrow : Sha2 32 where
  turns := ⟨(7, 18, 3), (17, 19, 10), (2, 13, 22), (6, 11, 25)⟩
  constants := (primes.take 64).map (rootBits 32 3)

def wide : Sha2 64 where
  turns := ⟨(1, 8, 7), (19, 61, 6), (28, 34, 39), (14, 18, 41)⟩
  constants := primes.map (rootBits 64 3)

def sha256 : List UInt8 :=
  sha2From narrow ⟨0x6a09e667, 0xbb67ae85, 0x3c6ef372, 0xa54ff53a,
    0x510e527f, 0x9b05688c, 0x1f83d9ab, 0x5be0cd19⟩ message

def sha224 : List UInt8 :=
  (sha2From narrow ⟨0xc1059ed8, 0x367cd507, 0x3070dd17, 0xf70e5939,
    0xffc00b31, 0x68581511, 0x64f98fa7, 0xbefa4fa4⟩ message).take 28

def sha512 : List UInt8 :=
  sha2From wide ⟨0x6a09e667f3bcc908, 0xbb67ae8584caa73b, 0x3c6ef372fe94f82b, 0xa54ff53a5f1d36f1,
    0x510e527fade682d1, 0x9b05688c2b3e6c1f, 0x1f83d9abfb41bd6b, 0x5be0cd19137e2179⟩ message

def sha384 : List UInt8 :=
  (sha2From wide ⟨0xcbbb9d5dc1059ed8, 0x629a292a367cd507, 0x9159015a3070dd17, 0x152fecd8f70e5939,
    0x67332667ffc00b31, 0x8eb44a8768581511, 0xdb0c2e0d64f98fa7, 0x47b5481dbefa4fa4⟩ message).take 48

end KeywordDocs.Digest
