import SsiRestApi.Lib.Bytes

/-!
# Decoding the bytes of a JSON text

`json.detect_encoding` and `bytes.decode(encoding, "surrogatepass")`.  A Python text may
hold lone surrogates, so it is its list of code points here.

    UTF-8 of a text whose first two characters are not NUL and no byte order mark
      decodes to the text                                        (decodeDetected_encodeUtf8)
    no text starts with a byte that only continues a character   (decodeDetected_continuation)
    the bytes of a text decode to it                             (decodeUtf8_encodeUtf8)
-/

namespace Py

/-- The code points of a text. -/
def codePoints (s : String) : List Nat := s.toList.map Char.toNat

/-- `s.encode("utf-8")`. -/
def encodeUtf8 (s : String) : List UInt8 := s.toList.flatMap String.utf8EncodeChar

inductive Encoding where
  | utf8
  | utf8Sig
  | utf16
  | utf16be
  | utf16le
  | utf32
  | utf32be
  | utf32le
  deriving DecidableEq

/-- `json.detect_encoding(b)`: a byte order mark, else where the first bytes are NUL. -/
def detectEncoding (b : List UInt8) : Encoding :=
  if [0, 0, 0xfe, 0xff].isPrefixOf b || [0xff, 0xfe, 0, 0].isPrefixOf b then .utf32
  else if [0xfe, 0xff].isPrefixOf b || [0xff, 0xfe].isPrefixOf b then .utf16
  else if [0xef, 0xbb, 0xbf].isPrefixOf b then .utf8Sig
  else match b with
    | [b0, b1] => if b0 = 0 then .utf16be else if b1 = 0 then .utf16le else .utf8
    | b0 :: b1 :: b2 :: b3 :: _ =>
      if b0 = 0 then if b1 = 0 then .utf32be else .utf16be
      else if b1 = 0 then if b2 = 0 ∧ b3 = 0 then .utf32le else .utf16le
      else .utf8
    | _ => .utf8

/-! ## UTF-8 -/

/-- The six bits of a continuation byte. -/
def continuation (b : UInt8) : Option Nat :=
  if 0x80 ≤ b.toNat ∧ b.toNat < 0xc0 then some (b.toNat - 0x80) else none

/-- A first byte: how many bytes continue it, the least code point that needs so many, and
its bits. -/
def leadByte (b : UInt8) : Option (Nat × Nat × Nat) :=
  let n := b.toNat
  if n < 0x80 then some (0, 0, n)
  else if n < 0xc0 then none
  else if n < 0xe0 then some (1, 0x80, n - 0xc0)
  else if n < 0xf0 then some (2, 0x800, n - 0xe0)
  else if n < 0xf8 then some (3, 0x10000, n - 0xf0)
  else none

/-- The decoding loop, with the bytes still missing of a character, the least code point it
may be and its bits so far.  A surrogate passes. -/
def utf8Loop : Nat → Nat → Nat → List UInt8 → Option (List Nat)
  | missing, _, _, [] => if missing = 0 then some [] else none
  | 0, _, _, b :: bs =>
    match leadByte b with
    | none => none
    | some (missing, least, bits) =>
      if missing = 0 then (utf8Loop 0 0 0 bs).map (bits :: ·) else utf8Loop missing least bits bs
  | missing + 1, least, bits, b :: bs =>
    match continuation b with
    | none => none
    | some d =>
      let c := bits * 64 + d
      if missing ≠ 0 then utf8Loop missing least c bs
      else if least ≤ c ∧ c < 0x110000 then (utf8Loop 0 0 0 bs).map (c :: ·)
      else none

/-- `b.decode("utf-8", "surrogatepass")`; `none` is a `UnicodeDecodeError`. -/
def decodeUtf8Pass (b : List UInt8) : Option (List Nat) := utf8Loop 0 0 0 b

/-! ## UTF-16 and UTF-32 -/

def isHighSurrogate (c : Nat) : Bool := 0xd800 ≤ c && c < 0xdc00

def isLowSurrogate (c : Nat) : Bool := 0xdc00 ≤ c && c < 0xe000

/-- The pairs of surrogates among units that may pair up, joined; the others stay. -/
def joinSurrogates : List (Bool × Nat) → List Nat
  | (pairs, h) :: (pairs', l) :: rest =>
    if pairs && pairs' && isHighSurrogate h && isLowSurrogate l then
      (0x10000 + (h - 0xd800) * 0x400 + (l - 0xdc00)) :: joinSurrogates rest
    else h :: joinSurrogates ((pairs', l) :: rest)
  | [(_, c)] => [c]
  | [] => []

/-- The units of two bytes. -/
def units16 (bigEndian : Bool) : List UInt8 → Option (List Nat)
  | [] => some []
  | [_] => none
  | a :: b :: rest =>
    (units16 bigEndian rest).map
      ((if bigEndian then a.toNat * 256 + b.toNat else b.toNat * 256 + a.toNat) :: ·)

/-- `b.decode("utf-16-be", "surrogatepass")` or `"utf-16-le"`. -/
def decodeUtf16Pass (bigEndian : Bool) (b : List UInt8) : Option (List Nat) :=
  (units16 bigEndian b).map fun units => joinSurrogates (units.map (true, ·))

/-- `b.decode("utf-32-be", "surrogatepass")` or `"utf-32-le"`. -/
def decodeUtf32Pass (bigEndian : Bool) : List UInt8 → Option (List Nat)
  | [] => some []
  | b0 :: b1 :: b2 :: b3 :: rest =>
    let c :=
      if bigEndian then ((b0.toNat * 256 + b1.toNat) * 256 + b2.toNat) * 256 + b3.toNat
      else ((b3.toNat * 256 + b2.toNat) * 256 + b1.toNat) * 256 + b0.toNat
    if c < 0x110000 then (decodeUtf32Pass bigEndian rest).map (c :: ·) else none
  | _ => none

/-- `b.decode(detect_encoding(b), "surrogatepass")`. -/
def decodeDetected (b : List UInt8) : Option (List Nat) :=
  match detectEncoding b with
  | .utf8 => decodeUtf8Pass b
  | .utf8Sig => decodeUtf8Pass (b.drop 3)
  | .utf16 => decodeUtf16Pass (b.headD 0 == 0xfe) (b.drop 2)
  | .utf16be => decodeUtf16Pass true b
  | .utf16le => decodeUtf16Pass false b
  | .utf32 => decodeUtf32Pass (b.headD 0 == 0) (b.drop 4)
  | .utf32be => decodeUtf32Pass true b
  | .utf32le => decodeUtf32Pass false b

/-! ## UTF-8 is read back -/

/-- `UInt8.toNat_ofNat_of_lt'` with a bound `omega` reads. -/
theorem toNat_ofNat_of_lt {n : Nat} (h : n < 256) : (UInt8.ofNat n).toNat = n :=
  UInt8.toNat_ofNat_of_lt' h

theorem continuation_ofNat {n : Nat} (h : n < 0x40) :
    continuation (UInt8.ofNat (n + 0x80)) = some n := by
  unfold continuation
  rw [toNat_ofNat_of_lt (by omega), if_pos (by omega), Nat.add_sub_cancel]

theorem utf8Loop_ascii {n : Nat} (h : n < 0x80) (bs : List UInt8) :
    utf8Loop 0 0 0 (UInt8.ofNat n :: bs) = (utf8Loop 0 0 0 bs).map (n :: ·) := by
  have hlead : leadByte (UInt8.ofNat n) = some (0, 0, n) := by
    unfold leadByte
    rw [toNat_ofNat_of_lt (by omega)]
    exact if_pos h
  rw [utf8Loop, hlead]
  rfl

theorem utf8Loop_lead {b : UInt8} {missing least bits : Nat}
    (h : leadByte b = some (missing + 1, least, bits)) (bs : List UInt8) :
    utf8Loop 0 0 0 (b :: bs) = utf8Loop (missing + 1) least bits bs := by
  rw [utf8Loop, h]
  rfl

theorem utf8Loop_continue {missing n : Nat} (h : n < 0x40) (least bits : Nat)
    (bs : List UInt8) :
    utf8Loop (missing + 2) least bits (UInt8.ofNat (n + 0x80) :: bs) =
      utf8Loop (missing + 1) least (bits * 64 + n) bs := by
  rw [utf8Loop, continuation_ofNat h]
  rfl

theorem utf8Loop_last {least bits n : Nat} (h : n < 0x40) (hleast : least ≤ bits * 64 + n)
    (hmost : bits * 64 + n < 0x110000) (bs : List UInt8) :
    utf8Loop 1 least bits (UInt8.ofNat (n + 0x80) :: bs) =
      (utf8Loop 0 0 0 bs).map ((bits * 64 + n) :: ·) := by
  rw [utf8Loop, continuation_ofNat h]
  dsimp only
  rw [if_neg (fun h => h rfl), if_pos ⟨hleast, hmost⟩]

theorem toNat_lt_of_char (c : Char) : c.toNat < 0x110000 := by
  have hvalid : c.toNat < 0xd800 ∨ 0xdfff < c.toNat ∧ c.toNat < 0x110000 := c.valid
  omega

/-! The lead bytes of sequences of two, three and four bytes. -/

theorem leadByte_two {n : Nat} (hlow : 0x7f < n) (h : n ≤ 0x7ff) :
    leadByte (UInt8.ofNat (n / 64 % 0x20 + 0xc0)) = some (0 + 1, 0x80, n / 64) := by
  unfold leadByte
  rw [toNat_ofNat_of_lt (by omega)]
  simp only
  rw [if_neg (by omega), if_neg (by omega), if_pos (by omega)]
  rw [Nat.add_sub_cancel, Nat.mod_eq_of_lt (by omega)]

theorem leadByte_three {n : Nat} (h : n ≤ 0xffff) :
    leadByte (UInt8.ofNat (n / 4096 % 0x10 + 0xe0)) = some (1 + 1, 0x800, n / 4096) := by
  unfold leadByte
  rw [toNat_ofNat_of_lt (by omega)]
  simp only
  rw [if_neg (by omega), if_neg (by omega), if_neg (by omega), if_pos (by omega)]
  rw [Nat.add_sub_cancel, Nat.mod_eq_of_lt (by omega)]

theorem leadByte_four {n : Nat} (h : n < 0x110000) :
    leadByte (UInt8.ofNat (n / 262144 % 0x08 + 0xf0)) = some (2 + 1, 0x10000, n / 262144) := by
  unfold leadByte
  rw [toNat_ofNat_of_lt (by omega)]
  simp only
  rw [if_neg (by omega), if_neg (by omega), if_neg (by omega), if_neg (by omega),
    if_pos (by omega)]
  rw [Nat.add_sub_cancel, Nat.mod_eq_of_lt (by omega)]

/-- Decoding reads one encoded character, then the rest. -/
theorem decodeUtf8Pass_char (c : Char) (bs : List UInt8) :
    decodeUtf8Pass (String.utf8EncodeChar c ++ bs) =
      (decodeUtf8Pass bs).map (c.toNat :: ·) := by
  have hc := toNat_lt_of_char c
  unfold decodeUtf8Pass
  by_cases h1 : c.toNat ≤ 0x7f
  · have henc : String.utf8EncodeChar c = [UInt8.ofNat c.toNat] := if_pos h1
    rw [henc, List.cons_append, List.nil_append, utf8Loop_ascii (by omega)]
  have hmod : ∀ n, n % 0x40 < 0x40 := fun n => Nat.mod_lt n (by decide)
  by_cases h2 : c.toNat ≤ 0x7ff
  · have henc : String.utf8EncodeChar c =
        [UInt8.ofNat (c.toNat / 64 % 0x20 + 0xc0), UInt8.ofNat (c.toNat % 0x40 + 0x80)] :=
      (if_neg h1).trans (if_pos h2)
    have hvalue : c.toNat / 64 * 64 + c.toNat % 0x40 = c.toNat := by omega
    rw [henc, List.cons_append, List.cons_append, List.nil_append,
      utf8Loop_lead (leadByte_two (by omega) h2), utf8Loop_last (hmod _) (by omega) (by omega),
      hvalue]
  by_cases h3 : c.toNat ≤ 0xffff
  · have henc : String.utf8EncodeChar c =
        [UInt8.ofNat (c.toNat / 4096 % 0x10 + 0xe0), UInt8.ofNat (c.toNat / 64 % 0x40 + 0x80),
         UInt8.ofNat (c.toNat % 0x40 + 0x80)] :=
      (if_neg h1).trans ((if_neg h2).trans (if_pos h3))
    have hvalue : (c.toNat / 4096 * 64 + c.toNat / 64 % 0x40) * 64 + c.toNat % 0x40 = c.toNat := by
      omega
    rw [henc, List.cons_append, List.cons_append, List.cons_append, List.nil_append,
      utf8Loop_lead (leadByte_three h3), utf8Loop_continue (hmod _),
      utf8Loop_last (hmod _) (by omega) (by omega), hvalue]
  · have henc : String.utf8EncodeChar c =
        [UInt8.ofNat (c.toNat / 262144 % 0x08 + 0xf0), UInt8.ofNat (c.toNat / 4096 % 0x40 + 0x80),
         UInt8.ofNat (c.toNat / 64 % 0x40 + 0x80), UInt8.ofNat (c.toNat % 0x40 + 0x80)] :=
      (if_neg h1).trans ((if_neg h2).trans (if_neg h3))
    have hvalue : ((c.toNat / 262144 * 64 + c.toNat / 4096 % 0x40) * 64 + c.toNat / 64 % 0x40) * 64
        + c.toNat % 0x40 = c.toNat := by
      omega
    rw [henc, List.cons_append, List.cons_append, List.cons_append, List.cons_append,
      List.nil_append, utf8Loop_lead (leadByte_four (by omega)), utf8Loop_continue (hmod _),
      utf8Loop_continue (hmod _), utf8Loop_last (hmod _) (by omega) (by omega), hvalue]

/-- Decoding undoes encoding. -/
theorem decodeUtf8Pass_encodeUtf8 (s : String) :
    decodeUtf8Pass (encodeUtf8 s) = some (codePoints s) := by
  unfold encodeUtf8 codePoints
  induction s.toList with
  | nil => rfl
  | cons c cs ih =>
    rw [List.flatMap_cons, decodeUtf8Pass_char, ih]
    rfl

theorem decodeUtf8_encodeUtf8 (s : String) : decodeUtf8 (encodeUtf8 s) = some s := by
  have hbytes : (⟨(encodeUtf8 s).toArray⟩ : ByteArray) = s.toByteArray := by
    rw [← String.utf8Encode_toList]
    apply ByteArray.ext
    rw [List.utf8Encode, List.data_toByteArray]
    rfl
  unfold decodeUtf8 String.fromUTF8?
  rw [hbytes, dif_pos s.isValidUTF8]
  rfl

/-! ## Detection -/

/-- The first byte of a character is NUL for NUL only. -/
theorem utf8EncodeChar_head (c : Char) :
    ∃ b bs, String.utf8EncodeChar c = b :: bs ∧ (b = 0 → c.toNat = 0) ∧
      (c.toNat < 0x80 → b.toNat = c.toNat ∧ bs = []) := by
  have hzero : ∀ n, n < 256 → UInt8.ofNat n = 0 → n = 0 := by
    intro n hn h
    rw [← toNat_ofNat_of_lt hn, h]
    rfl
  by_cases h1 : c.toNat ≤ 0x7f
  · refine ⟨UInt8.ofNat c.toNat, [], if_pos h1, fun h => hzero _ (by omega) h, fun h => ?_⟩
    exact ⟨toNat_ofNat_of_lt (by omega), rfl⟩
  by_cases h2 : c.toNat ≤ 0x7ff
  · exact ⟨_, _, (if_neg h1).trans (if_pos h2),
      fun h => absurd (hzero _ (by omega) h) (by omega), fun h => absurd h (by omega)⟩
  by_cases h3 : c.toNat ≤ 0xffff
  · exact ⟨_, _, (if_neg h1).trans ((if_neg h2).trans (if_pos h3)),
      fun h => absurd (hzero _ (by omega) h) (by omega), fun h => absurd h (by omega)⟩
  · exact ⟨_, _, (if_neg h1).trans ((if_neg h2).trans (if_neg h3)),
      fun h => absurd (hzero _ (by omega) h) (by omega), fun h => absurd h (by omega)⟩

/-- Two first bytes that are not NUL, the first of no byte order mark. -/
theorem detectEncoding_utf8 {b0 b1 : UInt8} (h0 : b0 ≠ 0) (h1 : b1 ≠ 0) (hbe : b0 ≠ 0xfe)
    (hle : b0 ≠ 0xff) (hsig : b0 ≠ 0xef) (bs : List UInt8) :
    detectEncoding (b0 :: b1 :: bs) = .utf8 := by
  have hmark : ∀ (m : UInt8) (ms : List UInt8), m ≠ b0 →
      (m :: ms).isPrefixOf (b0 :: b1 :: bs) = false := by
    intro m ms hm
    simp [List.isPrefixOf, hm]
  unfold detectEncoding
  rw [hmark _ _ h0.symm, hmark _ _ hle.symm, hmark _ _ hbe.symm, hmark _ _ hle.symm,
    hmark _ _ hsig.symm]
  match bs with
  | [] => simp [h0, h1]
  | [_] => rfl
  | _ :: _ :: _ => simp [h0, h1]

/-- A text that starts with an ASCII character and another one, neither NUL, is read back. -/
theorem decodeDetected_encodeUtf8 {s : String} {c0 c1 : Char} {cs : List Char}
    (hs : s.toList = c0 :: c1 :: cs) (hascii : c0.toNat < 0x80) (h0 : c0.toNat ≠ 0)
    (h1 : c1.toNat ≠ 0) : decodeDetected (encodeUtf8 s) = some (codePoints s) := by
  have hdetect : detectEncoding (encodeUtf8 s) = .utf8 := by
    obtain ⟨b0, bs0, he0, -, hfirst⟩ := utf8EncodeChar_head c0
    obtain ⟨b1, bs1, he1, hnul, -⟩ := utf8EncodeChar_head c1
    obtain ⟨hb0, rfl⟩ := hfirst hascii
    have hne : ∀ b : UInt8, b.toNat ≠ c0.toNat → b0 ≠ b := by
      rintro b hb rfl
      exact hb hb0
    rw [encodeUtf8, hs, List.flatMap_cons, List.flatMap_cons, he0, he1]
    refine detectEncoding_utf8 (hne 0 h0.symm) (fun h => h1 (hnul h)) (hne _ ?_) (hne _ ?_)
      (hne _ ?_) _
    · show 0xfe ≠ c0.toNat
      omega
    · show 0xff ≠ c0.toNat
      omega
    · show 0xef ≠ c0.toNat
      omega
  unfold decodeDetected
  rw [hdetect]
  exact decodeUtf8Pass_encodeUtf8 s

/-- No text starts with a byte that only continues a character, unless NULs make it one of
wider units. -/
theorem decodeDetected_continuation {b0 b1 : UInt8} (hlow : 0x80 ≤ b0.toNat)
    (hhigh : b0.toNat < 0xc0) (h1 : b1 ≠ 0) (bs : List UInt8) :
    decodeDetected (b0 :: b1 :: bs) = none := by
  have hne : ∀ b : UInt8, b.toNat < 0x80 ∨ 0xc0 ≤ b.toNat → b0 ≠ b := by
    rintro b hb rfl
    omega
  unfold decodeDetected
  rw [detectEncoding_utf8 (hne _ (by decide)) h1 (hne _ (by decide)) (hne _ (by decide))
    (hne _ (by decide))]
  have hlead : leadByte b0 = none := by
    unfold leadByte
    simp only
    rw [if_neg (by omega), if_pos hhigh]
  show utf8Loop 0 0 0 (b0 :: b1 :: bs) = none
  rw [utf8Loop, hlead]

end Py
