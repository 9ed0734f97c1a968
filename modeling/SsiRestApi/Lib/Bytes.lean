import Mathlib.Data.List.Basic

/-!
# Bytes: base64 and SHA-256

`base64.b64decode` as CPython runs it (characters outside the alphabet are
skipped, a completed pad sequence ends the input), `base64.urlsafe_b64encode`,
and `hashlib.sha256` (FIPS 180-4).
-/

namespace Py

/-- `s.encode("ascii")`; `none` is a `UnicodeEncodeError`. -/
def encodeAscii (s : String) : Option (List UInt8) :=
  if s.toList.all fun c => c.toNat < 128 then
    some (s.toList.map fun c => UInt8.ofNat c.toNat)
  else none

theorem isSome_encodeAscii_iff {s : String} :
    (encodeAscii s).isSome = true ↔ ∀ c ∈ s.toList, c.toNat < 128 := by
  unfold encodeAscii
  split
  · next h => simpa using h
  · next h => simpa using h

/-- `data.decode("utf-8")`; `none` is a `UnicodeDecodeError`. -/
def decodeUtf8 (data : List UInt8) : Option String := String.fromUTF8? ⟨data.toArray⟩

/-! ## Base64 -/

inductive B64Error where
  /-- A `ValueError`: the text is not ASCII. -/
  | notAscii
  /-- A `binascii.Error`. -/
  | binascii
  deriving DecidableEq

/-- The six bits of a base64 character. -/
def b64Digit (b : UInt8) : Option Nat :=
  let n := b.toNat
  if 65 ≤ n && n ≤ 90 then some (n - 65)
  else if 97 ≤ n && n ≤ 122 then some (n - 71)
  else if 48 ≤ n && n ≤ 57 then some (n + 4)
  else if n = 43 then some 62
  else if n = 47 then some 63
  else none

/-- The decoding loop: position in the quad, the bits left over, pads in a row and output. -/
def a2bLoop : List UInt8 → Nat → Nat → Nat → List UInt8 → Except B64Error (List UInt8)
  | [], quadPos, _, _, out => if quadPos = 0 then .ok out else .error .binascii
  | b :: bs, quadPos, left, pads, out =>
    if b.toNat = 61 then
      if quadPos ≥ 2 then
        if quadPos + (pads + 1) ≥ 4 then .ok out else a2bLoop bs quadPos left (pads + 1) out
      else a2bLoop bs quadPos left pads out
    else match b64Digit b with
      | none => a2bLoop bs quadPos left pads out
      | some d =>
        match quadPos with
        | 0 => a2bLoop bs 1 d 0 out
        | 1 => a2bLoop bs 2 (d % 16) 0 (out ++ [UInt8.ofNat (left * 4 + d / 16)])
        | 2 => a2bLoop bs 3 (d % 4) 0 (out ++ [UInt8.ofNat (left * 16 + d / 4)])
        | _ => a2bLoop bs 0 0 0 (out ++ [UInt8.ofNat (left * 64 + d)])

/-- `base64.b64decode(s)`. -/
def b64decode (s : String) : Except B64Error (List UInt8) :=
  match encodeAscii s with
  | none => .error .notAscii
  | some bs => a2bLoop bs 0 0 0 []

def urlsafeAlphabet : List Char :=
  "ABCDEFGHIJKLMNOPQRSTUVWXYZabcdefghijklmnopqrstuvwxyz0123456789-_".toList

def urlsafeChar (n : Nat) : Char := urlsafeAlphabet.getD (n % 64) 'A'

/-- `base64.urlsafe_b64encode(data)` as text, with the trailing `=` stripped. -/
def urlsafeB64encodeUnpadded : List UInt8 → List Char
  | [] => []
  | [a] => [urlsafeChar (a.toNat / 4), urlsafeChar (a.toNat * 16)]
  | [a, b] =>
    [urlsafeChar (a.toNat / 4), urlsafeChar (a.toNat * 16 + b.toNat / 16),
     urlsafeChar (b.toNat * 4)]
  | a :: b :: c :: rest =>
    urlsafeChar (a.toNat / 4) :: urlsafeChar (a.toNat * 16 + b.toNat / 16) ::
      urlsafeChar (b.toNat * 4 + c.toNat / 64) :: urlsafeChar c.toNat ::
      urlsafeB64encodeUnpadded rest

/-! ## SHA-256 -/

namespace Sha256

def rotr (x : UInt32) (n : UInt32) : UInt32 := (x >>> n) ||| (x <<< (32 - n))

def roundConstants : List UInt32 :=
  [0x428a2f98, 0x71374491, 0xb5c0fbcf, 0xe9b5dba5, 0x3956c25b, 0x59f111f1, 0x923f82a4, 0xab1c5ed5,
   0xd807aa98, 0x12835b01, 0x243185be, 0x550c7dc3, 0x72be5d74, 0x80deb1fe, 0x9bdc06a7, 0xc19bf174,
   0xe49b69c1, 0xefbe4786, 0x0fc19dc6, 0x240ca1cc, 0x2de92c6f, 0x4a7484aa, 0x5cb0a9dc, 0x76f988da,
   0x983e5152, 0xa831c66d, 0xb00327c8, 0xbf597fc7, 0xc6e00bf3, 0xd5a79147, 0x06ca6351, 0x14292967,
   0x27b70a85, 0x2e1b2138, 0x4d2c6dfc, 0x53380d13, 0x650a7354, 0x766a0abb, 0x81c2c92e, 0x92722c85,
   0xa2bfe8a1, 0xa81a664b, 0xc24b8b70, 0xc76c51a3, 0xd192e819, 0xd6990624, 0xf40e3585, 0x106aa070,
   0x19a4c116, 0x1e376c08, 0x2748774c, 0x34b0bcb5, 0x391c0cb3, 0x4ed8aa4a, 0x5b9cca4f, 0x682e6ff3,
   0x748f82ee, 0x78a5636f, 0x84c87814, 0x8cc70208, 0x90befffa, 0xa4506ceb, 0xbef9a3f7, 0xc67178f2]

def initial : List UInt32 :=
  [0x6a09e667, 0xbb67ae85, 0x3c6ef372, 0xa54ff53a, 0x510e527f, 0x9b05688c, 0x1f83d9ab, 0x5be0cd19]

/-- `n` as `k` big-endian bytes. -/
def bigEndian (n : Nat) : Nat → List UInt8
  | 0 => []
  | k + 1 => bigEndian (n / 256) k ++ [UInt8.ofNat n]

def pad (msg : List UInt8) : List UInt8 :=
  msg ++ 0x80 :: List.replicate ((119 - msg.length % 64) % 64) 0 ++ bigEndian (8 * msg.length) 8

/-- Big-endian words of four bytes. -/
def words : List UInt8 → List UInt32
  | a :: b :: c :: d :: rest =>
    UInt32.ofNat (((a.toNat * 256 + b.toNat) * 256 + c.toNat) * 256 + d.toNat) :: words rest
  | _ => []

/-- The message schedule, newest word first, extended `n` times. -/
def extend (w : List UInt32) : Nat → List UInt32
  | 0 => w
  | n + 1 =>
    let at' i := w.getD (i - 1) 0
    let s0 := rotr (at' 15) 7 ^^^ rotr (at' 15) 18 ^^^ (at' 15 >>> 3)
    let s1 := rotr (at' 2) 17 ^^^ rotr (at' 2) 19 ^^^ (at' 2 >>> 10)
    extend ((at' 16 + s0 + at' 7 + s1) :: w) n

def round (s : List UInt32) (kw : UInt32 × UInt32) : List UInt32 :=
  match s with
  | [a, b, c, d, e, f, g, h] =>
    let s1 := rotr e 6 ^^^ rotr e 11 ^^^ rotr e 25
    let ch := (e &&& f) ^^^ (~~~e &&& g)
    let t1 := h + s1 + ch + kw.1 + kw.2
    let s0 := rotr a 2 ^^^ rotr a 13 ^^^ rotr a 22
    let maj := (a &&& b) ^^^ (a &&& c) ^^^ (b &&& c)
    [t1 + (s0 + maj), a, b, c, d + t1, e, f, g]
  | _ => s

def compress (state block : List UInt32) : List UInt32 :=
  let schedule := (extend block.reverse 48).reverse
  List.zipWith (· + ·) state ((roundConstants.zip schedule).foldl round state)

/-- The state after `n` blocks of sixteen words. -/
def blocks : Nat → List UInt32 → List UInt32 → List UInt32
  | 0, state, _ => state
  | n + 1, state, ws => blocks n (compress state (ws.take 16)) (ws.drop 16)

theorem length_bigEndian (n k : Nat) : (bigEndian n k).length = k := by
  induction k generalizing n with
  | zero => rfl
  | succ k ih => rw [bigEndian, List.length_append, ih, List.length_singleton]

theorem length_round (s : List UInt32) (kw : UInt32 × UInt32) : (round s kw).length = s.length := by
  unfold round
  split <;> rfl

theorem length_foldl_round (s : List UInt32) (kws : List (UInt32 × UInt32)) :
    (kws.foldl round s).length = s.length := by
  induction kws generalizing s with
  | nil => rfl
  | cons kw kws ih => rw [List.foldl_cons, ih, length_round]

theorem length_compress (s block : List UInt32) : (compress s block).length = s.length := by
  unfold compress
  rw [List.length_zipWith, length_foldl_round, Nat.min_self]

theorem length_blocks (n : Nat) (s ws : List UInt32) : (blocks n s ws).length = s.length := by
  induction n generalizing s ws with
  | zero => rfl
  | succ n ih => rw [blocks, ih, length_compress]

end Sha256

/-- `hashlib.sha256(data).digest()`. -/
def sha256 (data : List UInt8) : List UInt8 :=
  let padded := Sha256.pad data
  (Sha256.blocks (padded.length / 64) Sha256.initial (Sha256.words padded)).flatMap fun w =>
    Sha256.bigEndian w.toNat 4

/-- A digest has 32 bytes. -/
theorem length_sha256 (data : List UInt8) : (sha256 data).length = 32 := by
  unfold sha256
  simp only [List.length_flatMap, Sha256.length_bigEndian, List.map_const', List.sum_replicate_nat,
    Sha256.length_blocks]
  rfl

end Py
