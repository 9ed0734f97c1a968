import Mathlib.Data.Bool.AllAny
import SsiRestApi.Lib.Bytes

/-!
# URL-safe base64

`base64.urlsafe_b64decode` runs the decoding loop on the standard alphabet, and
`base64.b64encode` writes that alphabet with padding.

    a text without padding, padded again, decodes to its bytes     (urlsafeB64decode_padded)
    what is encoded decodes to itself                              (b64decode_b64encode)
    what the loop has written stays at the front of its result     (prefix_of_a2bLoop)
-/

namespace Py

/-- `_urlsafe_decode_translation`. -/
def urlsafeTranslate (b : UInt8) : UInt8 := if b = 45 then 43 else if b = 95 then 47 else b

/-- `base64.urlsafe_b64decode(s)`. -/
def urlsafeB64decode (s : String) : Except B64Error (List UInt8) :=
  match encodeAscii s with
  | none => .error .notAscii
  | some bs => a2bLoop (bs.map urlsafeTranslate) 0 0 0 []

/-- A text in the URL-safe alphabet without padding, and the bytes it stands for; the bits its
last character has too many are free. -/
inductive UrlsafeB64 : List Char → List UInt8 → Prop
  | nil : UrlsafeB64 [] []
  | one (x y : Fin 64) :
      UrlsafeB64 [urlsafeChar x.val, urlsafeChar y.val] [UInt8.ofNat (x.val * 4 + y.val / 16)]
  | two (x y z : Fin 64) :
      UrlsafeB64 [urlsafeChar x.val, urlsafeChar y.val, urlsafeChar z.val]
        [UInt8.ofNat (x.val * 4 + y.val / 16), UInt8.ofNat (y.val % 16 * 16 + z.val / 4)]
  | quad (x y z w : Fin 64) {s : List Char} {bs : List UInt8} (h : UrlsafeB64 s bs) :
      UrlsafeB64
        (urlsafeChar x.val :: urlsafeChar y.val :: urlsafeChar z.val :: urlsafeChar w.val :: s)
        (UInt8.ofNat (x.val * 4 + y.val / 16) :: UInt8.ofNat (y.val % 16 * 16 + z.val / 4) ::
          UInt8.ofNat (z.val % 4 * 64 + w.val) :: bs)

/-! ## The loop -/

/-- The byte the loop reads for a character. -/
def urlsafeByte (c : Char) : UInt8 := urlsafeTranslate (UInt8.ofNat c.toNat)

theorem b64Digit_urlsafeByte : ∀ x : Fin 64,
    b64Digit (urlsafeByte (urlsafeChar x.val)) = some x.val := by
  decide +kernel

theorem urlsafeChar_mem (n : Nat) : urlsafeChar n ∈ urlsafeAlphabet := by
  have hlen : n % 64 < urlsafeAlphabet.length := Nat.mod_lt n (by decide)
  unfold urlsafeChar
  rw [List.getD_eq_getElem?_getD, List.getElem?_eq_getElem hlen]
  exact List.getElem_mem hlen

theorem UrlsafeB64.mem_alphabet {s : List Char} {bs : List UInt8} (h : UrlsafeB64 s bs) :
    ∀ c ∈ s, c ∈ urlsafeAlphabet := by
  induction h with
  | nil => simp
  | one => simp [urlsafeChar_mem]
  | two => simp [urlsafeChar_mem]
  | quad x y z w h ih => simpa [urlsafeChar_mem] using ih

theorem a2bLoop_digit {b : UInt8} {d : Nat} (hd : b64Digit b = some d) (bs : List UInt8)
    (quadPos left pads : Nat) (out : List UInt8) :
    a2bLoop (b :: bs) quadPos left pads out =
      match quadPos with
      | 0 => a2bLoop bs 1 d 0 out
      | 1 => a2bLoop bs 2 (d % 16) 0 (out ++ [UInt8.ofNat (left * 4 + d / 16)])
      | 2 => a2bLoop bs 3 (d % 4) 0 (out ++ [UInt8.ofNat (left * 16 + d / 4)])
      | _ => a2bLoop bs 0 0 0 (out ++ [UInt8.ofNat (left * 64 + d)]) := by
  have hpad : b.toNat ≠ 61 := by
    intro h
    simp [b64Digit, h] at hd
  rcases quadPos with _ | _ | _ | n <;> simp [a2bLoop, hpad, hd]

/-- The pad characters `_b64url_decode` appends. -/
def padding (length : Nat) : Nat := (4 - length % 4) % 4

theorem a2bLoop_urlsafe {s : List Char} {bs : List UInt8} (h : UrlsafeB64 s bs)
    (out : List UInt8) :
    a2bLoop (s.map urlsafeByte ++ List.replicate (padding s.length) 61) 0 0 0 out =
      .ok (out ++ bs) := by
  induction h generalizing out with
  | nil => simp [a2bLoop, padding]
  | one x y =>
    have hpads : List.replicate (padding 2) (61 : UInt8) = [61, 61] := rfl
    simp only [List.map_cons, List.map_nil, List.length_cons, List.length_nil, List.cons_append,
      List.nil_append, a2bLoop_digit (b64Digit_urlsafeByte _)]
    rw [hpads]
    simp [a2bLoop]
  | two x y z =>
    have hpads : List.replicate (padding 3) (61 : UInt8) = [61] := rfl
    simp only [List.map_cons, List.map_nil, List.length_cons, List.length_nil, List.cons_append,
      List.nil_append, a2bLoop_digit (b64Digit_urlsafeByte _)]
    rw [hpads]
    simp [a2bLoop]
  | quad x y z w h ih =>
    rename_i s bs
    have hpads : padding (s.length + 1 + 1 + 1 + 1) = padding s.length := by
      unfold padding
      omega
    simp only [List.map_cons, List.length_cons, List.cons_append,
      a2bLoop_digit (b64Digit_urlsafeByte _)]
    rw [hpads, ih]
    simp

theorem prefix_of_a2bLoop {bs : List UInt8} {quadPos left pads : Nat} {out result : List UInt8}
    (h : a2bLoop bs quadPos left pads out = .ok result) : out <+: result := by
  induction bs generalizing quadPos left pads out with
  | nil =>
    unfold a2bLoop at h
    split at h
    · cases h
      exact List.prefix_rfl
    · cases h
  | cons b bs ih =>
    unfold a2bLoop at h
    split at h
    · split at h
      · split at h
        · cases h
          exact List.prefix_rfl
        · exact ih h
      · exact ih h
    · split at h
      · exact ih h
      · split at h
        · exact ih h
        · exact (List.prefix_append _ _).trans (ih h)
        · exact (List.prefix_append _ _).trans (ih h)
        · exact (List.prefix_append _ _).trans (ih h)

/-- The loop itself never finds fault with the encoding of the text. -/
theorem a2bLoop_ne_notAscii {bs : List UInt8} {quadPos left pads : Nat} {out : List UInt8} :
    a2bLoop bs quadPos left pads out ≠ .error .notAscii := by
  induction bs generalizing quadPos left pads out with
  | nil =>
    unfold a2bLoop
    split <;> exact fun h => nomatch h
  | cons b bs ih =>
    unfold a2bLoop
    split
    · split
      · split
        · exact fun h => nomatch h
        · exact ih
      · exact ih
    · split
      · exact ih
      · split <;> exact ih

/-! ## Whole texts -/

theorem encodeAscii_ofList {cs : List Char} (h : ∀ c ∈ cs, c.toNat < 128) :
    encodeAscii (String.ofList cs) = some (cs.map fun c => UInt8.ofNat c.toNat) := by
  have hall : (cs.all fun c => decide (c.toNat < 128)) = true := by simpa using h
  unfold encodeAscii
  rw [String.toList_ofList, if_pos hall]

theorem urlsafeB64decode_ofList {cs : List Char} (h : ∀ c ∈ cs, c.toNat < 128) :
    urlsafeB64decode (String.ofList cs) = a2bLoop (cs.map urlsafeByte) 0 0 0 [] := by
  unfold urlsafeB64decode
  rw [encodeAscii_ofList h]
  show a2bLoop ((cs.map fun c => UInt8.ofNat c.toNat).map urlsafeTranslate) 0 0 0 [] = _
  rw [List.map_map]
  rfl

theorem a2bLoop_of_urlsafeB64decode {cs : List Char} {data : List UInt8}
    (h : urlsafeB64decode (String.ofList cs) = .ok data) :
    a2bLoop (cs.map urlsafeByte) 0 0 0 [] = .ok data := by
  by_cases hascii : ∀ c ∈ cs, c.toNat < 128
  · rw [← urlsafeB64decode_ofList hascii, h]
  · have hall : ¬ (cs.all fun c => decide (c.toNat < 128)) = true := by simpa using hascii
    unfold urlsafeB64decode encodeAscii at h
    rw [String.toList_ofList, if_neg hall] at h
    cases h

theorem toNat_lt_of_mem_urlsafeAlphabet : ∀ c ∈ urlsafeAlphabet, c.toNat < 128 :=
  List.all_iff_forall_prop.mp (by decide)

/-- A text without padding decodes to its bytes once it is padded. -/
theorem urlsafeB64decode_padded {s : List Char} {bs : List UInt8} (h : UrlsafeB64 s bs) :
    urlsafeB64decode (String.ofList (s ++ List.replicate (padding s.length) '=')) = .ok bs := by
  rw [urlsafeB64decode_ofList, List.map_append, List.map_replicate]
  · exact a2bLoop_urlsafe h []
  · intro c hc
    rcases List.mem_append.mp hc with hc | hc
    · exact toNat_lt_of_mem_urlsafeAlphabet c (h.mem_alphabet c hc)
    · rw [List.eq_of_mem_replicate hc]
      decide

/-! ## Encoding -/

theorem urlsafeChar_mod (n : Nat) : urlsafeChar (n % 64) = urlsafeChar n := by
  unfold urlsafeChar
  rw [Nat.mod_mod]

/-- `base64.urlsafe_b64encode` writes such a text. -/
theorem urlsafeB64_encode (bs : List UInt8) : UrlsafeB64 (urlsafeB64encodeUnpadded bs) bs := by
  have hchar : ∀ n, urlsafeChar n = urlsafeChar (Fin.ofNat 64 n).val :=
    fun n => (urlsafeChar_mod n).symm
  have hbyte : ∀ (a : UInt8) (n : Nat), n % 256 = a.toNat → UInt8.ofNat n = a := by
    intro a n h
    apply UInt8.toNat_inj.mp
    rw [UInt8.toNat_ofNat']
    exact h
  fun_induction urlsafeB64encodeUnpadded bs with
  | case1 => exact .nil
  | case2 a =>
    have ha := a.toNat_lt
    have h := UrlsafeB64.one (Fin.ofNat 64 (a.toNat / 4)) (Fin.ofNat 64 (a.toNat * 16))
    rw [hbyte a _ (by simp only [Fin.val_ofNat]; omega), ← hchar, ← hchar] at h
    exact h
  | case3 a b =>
    have ha := a.toNat_lt
    have hb := b.toNat_lt
    have h := UrlsafeB64.two (Fin.ofNat 64 (a.toNat / 4))
      (Fin.ofNat 64 (a.toNat * 16 + b.toNat / 16)) (Fin.ofNat 64 (b.toNat * 4))
    rw [hbyte a _ (by simp only [Fin.val_ofNat]; omega),
      hbyte b _ (by simp only [Fin.val_ofNat]; omega), ← hchar, ← hchar, ← hchar] at h
    exact h
  | case4 a b c rest ih =>
    have ha := a.toNat_lt
    have hb := b.toNat_lt
    have hc := c.toNat_lt
    have h := UrlsafeB64.quad (Fin.ofNat 64 (a.toNat / 4))
      (Fin.ofNat 64 (a.toNat * 16 + b.toNat / 16)) (Fin.ofNat 64 (b.toNat * 4 + c.toNat / 64))
      (Fin.ofNat 64 c.toNat) ih
    rw [hbyte a _ (by simp only [Fin.val_ofNat]; omega),
      hbyte b _ (by simp only [Fin.val_ofNat]; omega),
      hbyte c _ (by simp only [Fin.val_ofNat]; omega), ← hchar, ← hchar, ← hchar, ← hchar] at h
    exact h

theorem isSome_encodeAscii_urlsafeB64encode (bs : List UInt8) :
    (encodeAscii (String.ofList (urlsafeB64encodeUnpadded bs))).isSome = true := by
  refine isSome_encodeAscii_iff.mpr fun c hc => ?_
  rw [String.toList_ofList] at hc
  exact toNat_lt_of_mem_urlsafeAlphabet c ((urlsafeB64_encode bs).mem_alphabet c hc)

theorem urlsafeB64encode_ne_nil {bs : List UInt8} (h : bs ≠ []) :
    urlsafeB64encodeUnpadded bs ≠ [] := by
  fun_cases urlsafeB64encodeUnpadded bs with
  | case1 => exact absurd rfl h
  | case2 | case3 | case4 => simp

/-! ## The standard alphabet -/

/-- The character of the standard alphabet for one of the URL-safe. -/
def standardChar (c : Char) : Char := if c = '-' then '+' else if c = '_' then '/' else c

/-- `base64.b64encode(data)`, as text. -/
def b64encode (data : List UInt8) : String :=
  String.ofList ((urlsafeB64encodeUnpadded data).map standardChar ++
    List.replicate (padding (urlsafeB64encodeUnpadded data).length) '=')

theorem standardChar_spec : ∀ c ∈ urlsafeAlphabet,
    UInt8.ofNat (standardChar c).toNat = urlsafeByte c ∧ 32 < (standardChar c).toNat ∧
      (standardChar c).toNat < 127 :=
  List.all_iff_forall_prop.mp (by decide +kernel)

theorem b64encode_printable {data : List UInt8} {c : Char} (h : c ∈ (b64encode data).toList) :
    32 < c.toNat ∧ c.toNat < 127 := by
  unfold b64encode at h
  rw [String.toList_ofList] at h
  rcases List.mem_append.mp h with h | h
  · obtain ⟨d, hd, rfl⟩ := List.mem_map.mp h
    exact (standardChar_spec d ((urlsafeB64_encode data).mem_alphabet d hd)).2
  · rw [List.eq_of_mem_replicate h]
    decide

theorem b64decode_b64encode (data : List UInt8) : b64decode (b64encode data) = .ok data := by
  have hascii : ∀ c ∈ (urlsafeB64encodeUnpadded data).map standardChar ++
      List.replicate (padding (urlsafeB64encodeUnpadded data).length) '=', c.toNat < 128 := by
    intro c hc
    have hmem : c ∈ (b64encode data).toList := by
      rw [b64encode, String.toList_ofList]
      exact hc
    have hprintable := b64encode_printable hmem
    omega
  have hbytes : ((urlsafeB64encodeUnpadded data).map standardChar).map
      (fun c => UInt8.ofNat c.toNat) = (urlsafeB64encodeUnpadded data).map urlsafeByte := by
    rw [List.map_map]
    exact List.map_congr_left fun c hc =>
      (standardChar_spec c ((urlsafeB64_encode data).mem_alphabet c hc)).1
  unfold b64decode
  rw [b64encode, encodeAscii_ofList hascii]
  dsimp only
  rw [List.map_append, hbytes, List.map_replicate]
  exact a2bLoop_urlsafe (urlsafeB64_encode data) []

end Py
