import Mathlib.Data.List.Induction
import Mathlib.Data.List.Nodup
import SsiRestApi.Lib.Text
import SsiRestApi.Lib.Unicode

/-!
# Query strings

`urllib.parse.quote_plus`, `unquote`, `urlencode` and `parse_qsl`, and the `dict` of a list
of pairs.

    unquotePlus (quotePlus s) = s                    (unquotePlus_quotePlus)
    parse_qsl with blank values (urlencode l) = l    (parseQsl_urlencode)
-/

namespace Py

/-! ## Decoding with replacement characters -/

/-- How many bytes one `U+FFFD` stands for, at the head of bytes that are no character: the
longest start of a well-formed character, at least one byte. -/
def malformedLength : List UInt8 → Nat
  | b :: c :: rest =>
    let second : Bool :=
      if b = 0xe0 then 0xa0 ≤ c && c ≤ 0xbf
      else if b = 0xed then 0x80 ≤ c && c ≤ 0x9f
      else if b = 0xf0 then 0x90 ≤ c && c ≤ 0xbf
      else if b = 0xf4 then 0x80 ≤ c && c ≤ 0x8f
      else 0xe0 ≤ b && b ≤ 0xf4 && 0x80 ≤ c && c ≤ 0xbf
    if !second then 1
    else match rest with
      | d :: _ => if 0xf0 ≤ b && 0x80 ≤ d && d ≤ 0xbf then 3 else 2
      | [] => 2
  | _ => 1

/-- `data.decode("utf-8", errors="replace")`, with a bound on the number of characters. -/
def decodeReplaceLoop : Nat → List UInt8 → List Char
  | _, [] => []
  | 0, _ :: _ => []
  | n + 1, b :: bs =>
    match ByteArray.utf8DecodeChar? (b :: bs).toByteArray 0 with
    | some c => c :: decodeReplaceLoop n ((b :: bs).drop c.utf8Size)
    | none => '\ufffd' :: decodeReplaceLoop n ((b :: bs).drop (malformedLength (b :: bs)))

def decodeReplace (data : List UInt8) : List Char := decodeReplaceLoop data.length data

/-! ## Quoting -/

def hexDigits : List Char := "0123456789ABCDEF".toList

/-- `_ALWAYS_SAFE`. -/
def alwaysSafe (n : Nat) : Bool :=
  (65 ≤ n && n ≤ 90) || (97 ≤ n && n ≤ 122) || (48 ≤ n && n ≤ 57) ||
    n == 95 || n == 46 || n == 45 || n == 126

def quotePlusByte (b : UInt8) : List Char :=
  if b = 32 then ['+']
  else if alwaysSafe b.toNat then [Char.ofNat b.toNat]
  else ['%', hexDigits.getD (b.toNat / 16) '0', hexDigits.getD (b.toNat % 16) '0']

/-- `quote_plus(s)`. -/
def quotePlus (s : String) : String := String.ofList ((encodeUtf8 s).flatMap quotePlusByte)

def hexValue (c : Char) : Option Nat :=
  let n := c.toNat
  if 48 ≤ n ∧ n ≤ 57 then some (n - 48)
  else if 65 ≤ n ∧ n ≤ 70 then some (n - 55)
  else if 97 ≤ n ∧ n ≤ 102 then some (n - 87)
  else none

/-- `unquote_to_bytes` of ASCII characters. -/
def unquoteToBytes : List Char → List UInt8
  | [] => []
  | '%' :: a :: b :: rest =>
    match hexValue a, hexValue b with
    | some x, some y => UInt8.ofNat (16 * x + y) :: unquoteToBytes rest
    | _, _ => 37 :: unquoteToBytes (a :: b :: rest)
  | c :: cs => UInt8.ofNat c.toNat :: unquoteToBytes cs

/-- The runs of ASCII characters are decoded, the others kept; `run` is the current one. -/
def unquoteLoop (run : List Char) : List Char → List Char
  | [] => decodeReplace (unquoteToBytes run)
  | c :: cs =>
    if c.toNat < 128 then unquoteLoop (run ++ [c]) cs
    else decodeReplace (unquoteToBytes run) ++ c :: unquoteLoop [] cs

/-- `unquote(s)`. -/
def unquote (s : String) : String :=
  if s.toList.contains '%' then String.ofList (unquoteLoop [] s.toList) else s

/-- A `+` is a blank. -/
def unquotePlus (s : String) : String := unquote (replaceChar '+' ' ' s)

/-! ## Query strings -/

/-- `parse_qsl(qs, keep_blank_values)`. -/
def parseQsl (keepBlankValues : Bool) (qs : String) : List (String × String) :=
  (splitOn '&' qs).filterMap fun nameValue =>
    let (name, value) := partition '=' nameValue
    if nameValue = "" then none
    else if value ≠ "" || keepBlankValues then some (unquotePlus name, unquotePlus value)
    else none

/-- `urlencode(query)` of the items of a dictionary. -/
def urlencode (query : List (String × String)) : String :=
  join "&" (query.map fun p => quotePlus p.1 ++ "=" ++ quotePlus p.2)

/-! ## Decoding -/

theorem decodeReplaceLoop_encode (cs : List Char) {n : Nat} (hn : cs.length ≤ n) :
    decodeReplaceLoop n (cs.flatMap String.utf8EncodeChar) = cs := by
  induction cs generalizing n with
  | nil => cases n <;> rfl
  | cons c cs ih =>
    obtain ⟨m, rfl⟩ : ∃ m, n = m + 1 := ⟨n - 1, by rw [List.length_cons] at hn; omega⟩
    obtain ⟨b, bs, hbs⟩ := List.exists_cons_of_ne_nil (String.utf8EncodeChar_ne_nil (c := c))
    have hdecode : ByteArray.utf8DecodeChar?
        (String.utf8EncodeChar c ++ cs.flatMap String.utf8EncodeChar).toByteArray 0 = some c := by
      rw [List.toByteArray_append]
      exact ByteArray.utf8DecodeChar?_utf8EncodeChar_append
    have hdrop : (String.utf8EncodeChar c ++ cs.flatMap String.utf8EncodeChar).drop c.utf8Size =
        cs.flatMap String.utf8EncodeChar :=
      List.drop_left' (String.length_utf8EncodeChar c)
    rw [List.flatMap_cons]
    rw [hbs, List.cons_append] at hdecode hdrop ⊢
    rw [decodeReplaceLoop, hdecode]
    dsimp only
    rw [hdrop, ih (by rw [List.length_cons] at hn; omega)]

theorem decodeReplace_encode (s : String) :
    String.ofList (decodeReplace (encodeUtf8 s)) = s := by
  have hlength : ∀ cs : List Char,
      cs.length ≤ (cs.flatMap String.utf8EncodeChar).length := by
    intro cs
    induction cs with
    | nil => exact Nat.le_refl _
    | cons c cs ih =>
      have := c.utf8Size_pos
      rw [List.flatMap_cons, List.length_append, String.length_utf8EncodeChar, List.length_cons]
      omega
  unfold decodeReplace encodeUtf8
  rw [decodeReplaceLoop_encode _ (hlength _), String.ofList_toList]

/-- Bytes decode to at least one character. -/
theorem decodeReplace_eq_nil {data : List UInt8} (h : decodeReplace data = []) : data = [] := by
  cases data with
  | nil => rfl
  | cons b bs =>
    unfold decodeReplace at h
    rw [List.length_cons, decodeReplaceLoop] at h
    split at h <;> cases h

/-! ## Quoting is undone -/

/-- A hexadecimal digit is ASCII, no delimiter, and read back. -/
theorem hexDigits_getD : ∀ n < 16, let c := hexDigits.getD n '0'
    hexValue c = some n ∧ c.toNat < 128 ∧ 32 < c.toNat ∧ c ∉ ['+', '%', '&', '=', '#'] := by
  decide

/-- So is an unreserved character. -/
theorem alwaysSafe_char : ∀ n < 256, alwaysSafe n = true → let c := Char.ofNat n
    c.toNat = n ∧ n < 128 ∧ 32 < n ∧ c ∉ ['+', '%', '&', '=', '#'] := by
  decide +kernel

/-- The characters a quoted text is made of. -/
theorem mem_quotePlusByte {b : UInt8} {c : Char} (h : c ∈ quotePlusByte b) :
    c.toNat < 128 ∧ 32 < c.toNat ∧ c ∉ ['&', '=', '#'] := by
  have hb := b.toNat_lt
  unfold quotePlusByte at h
  split at h
  · rw [List.mem_singleton.mp h]
    decide
  · split at h
    · next hsafe =>
      obtain ⟨hn, hlt, hgt, hne⟩ := alwaysSafe_char b.toNat hb hsafe
      rw [List.mem_singleton.mp h]
      refine ⟨by omega, by omega, fun hmem => hne ?_⟩
      exact List.mem_cons_of_mem _ (List.mem_cons_of_mem _ hmem)
    · have hhex : ∀ n < 16, (hexDigits.getD n '0').toNat < 128 ∧ 32 < (hexDigits.getD n '0').toNat ∧
          hexDigits.getD n '0' ∉ ['&', '=', '#'] := by
        intro n hn
        obtain ⟨-, hlt, hgt, hne⟩ := hexDigits_getD n hn
        exact ⟨hlt, hgt, fun hmem => hne (List.mem_cons_of_mem _ (List.mem_cons_of_mem _ hmem))⟩
      simp only [List.mem_cons, List.not_mem_nil, or_false] at h
      rcases h with rfl | rfl | rfl
      · decide
      · exact hhex _ (by omega)
      · exact hhex _ (Nat.mod_lt _ (by decide))

theorem unquoteToBytes_cons {c : Char} (h : c ≠ '%') (cs : List Char) :
    unquoteToBytes (c :: cs) = UInt8.ofNat c.toNat :: unquoteToBytes cs := by
  rw [unquoteToBytes]
  rintro a b rest rfl
  exact absurd rfl h

/-- A quoted byte is read back, its `+` taken for a blank. -/
theorem unquoteToBytes_quotePlusByte (b : UInt8) (cs : List Char) :
    unquoteToBytes ((quotePlusByte b).map (fun c => if c = '+' then ' ' else c) ++ cs) =
      b :: unquoteToBytes cs := by
  have hb := b.toNat_lt
  unfold quotePlusByte
  split
  · next hblank =>
    subst hblank
    exact unquoteToBytes_cons (by decide) cs
  · split
    · next hsafe =>
      obtain ⟨hn, -, -, hne⟩ := alwaysSafe_char b.toNat hb hsafe
      have hplus : Char.ofNat b.toNat ≠ '+' := fun h => hne (by simp [h])
      have hpercent : Char.ofNat b.toNat ≠ '%' := fun h => hne (by simp [h])
      rw [List.map_singleton, if_neg hplus, List.singleton_append, unquoteToBytes_cons hpercent, hn,
        UInt8.ofNat_toNat]
    · obtain ⟨hx, -, -, hxne⟩ := hexDigits_getD (b.toNat / 16) (by omega)
      obtain ⟨hy, -, -, hyne⟩ := hexDigits_getD (b.toNat % 16) (Nat.mod_lt _ (by decide))
      have hxplus : hexDigits.getD (b.toNat / 16) '0' ≠ '+' := List.ne_of_not_mem_cons hxne
      have hyplus : hexDigits.getD (b.toNat % 16) '0' ≠ '+' := List.ne_of_not_mem_cons hyne
      simp only [List.map_cons, List.map_nil, if_neg hxplus, if_neg hyplus, List.cons_append,
        List.nil_append]
      rw [if_neg (by decide), unquoteToBytes, hx, hy]
      dsimp only
      rw [Nat.div_add_mod, UInt8.ofNat_toNat]

theorem unquoteLoop_ascii {cs : List Char} (h : ∀ c ∈ cs, c.toNat < 128) (run : List Char) :
    unquoteLoop run cs = decodeReplace (unquoteToBytes (run ++ cs)) := by
  induction cs generalizing run with
  | nil => rw [unquoteLoop, List.append_nil]
  | cons c cs ih =>
    rw [unquoteLoop, if_pos (h c List.mem_cons_self),
      ih (fun d hd => h d (List.mem_cons_of_mem _ hd)), List.append_assoc, List.singleton_append]

/-- ASCII text without a `%` is its own bytes. -/
theorem unquoteToBytes_ascii {cs : List Char} (h : ∀ c ∈ cs, c.toNat < 128) (hp : '%' ∉ cs) :
    unquoteToBytes cs = cs.flatMap String.utf8EncodeChar := by
  induction cs with
  | nil => rfl
  | cons c cs ih =>
    have hc := h c List.mem_cons_self
    have henc : String.utf8EncodeChar c = [UInt8.ofNat c.toNat] := if_pos (Nat.le_of_lt_succ hc)
    rw [unquoteToBytes_cons (List.ne_of_not_mem_cons hp).symm, List.flatMap_cons, henc,
      ih (fun d hd => h d (List.mem_cons_of_mem _ hd)) (List.not_mem_of_not_mem_cons hp)]
    rfl

theorem unquote_ascii {s : String} (h : ∀ c ∈ s.toList, c.toNat < 128) :
    unquote s = String.ofList (decodeReplace (unquoteToBytes s.toList)) := by
  unfold unquote
  by_cases hp : '%' ∈ s.toList
  · rw [if_pos (by simpa using hp), unquoteLoop_ascii h, List.nil_append]
  · rw [if_neg (by simpa using hp), unquoteToBytes_ascii h hp]
    exact (decodeReplace_encode s).symm

theorem mem_toList_quotePlus {s : String} {c : Char} (h : c ∈ (quotePlus s).toList) :
    c.toNat < 128 ∧ 32 < c.toNat ∧ c ∉ ['&', '=', '#'] := by
  unfold quotePlus at h
  rw [String.toList_ofList] at h
  obtain ⟨b, -, hb⟩ := List.mem_flatMap.mp h
  exact mem_quotePlusByte hb

theorem unquotePlus_quotePlus (s : String) : unquotePlus (quotePlus s) = s := by
  have hbytes : ∀ data : List UInt8,
      unquoteToBytes ((data.flatMap quotePlusByte).map fun c => if c = '+' then ' ' else c) =
        data := by
    intro data
    induction data with
    | nil => rfl
    | cons b data ih =>
      rw [List.flatMap_cons, List.map_append, unquoteToBytes_quotePlusByte, ih]
  have hascii : ∀ c ∈ (replaceChar '+' ' ' (quotePlus s)).toList, c.toNat < 128 := by
    intro c hc
    unfold replaceChar at hc
    rw [String.toList_ofList] at hc
    obtain ⟨d, hd, rfl⟩ := List.mem_map.mp hc
    split
    · decide
    · exact (mem_toList_quotePlus hd).1
  unfold unquotePlus
  rw [unquote_ascii hascii, replaceChar, String.toList_ofList, quotePlus, String.toList_ofList,
    hbytes]
  exact decodeReplace_encode s

/-! ## Query strings are read back -/

/-- Parsing a query string with its blank values undoes `urlencode`. -/
theorem parseQsl_urlencode (l : List (String × String)) : parseQsl true (urlencode l) = l := by
  have hsep : ∀ s : String, '&' ∉ (quotePlus s).toList ∧ '=' ∉ (quotePlus s).toList := by
    intro s
    exact ⟨fun hc => absurd (mem_toList_quotePlus hc).2.2 (by decide),
      fun hc => absurd (mem_toList_quotePlus hc).2.2 (by decide)⟩
  by_cases hl : l = []
  · subst hl
    rfl
  unfold parseQsl urlencode
  rw [show "&" = String.singleton '&' from rfl, splitOn_join (by simpa using hl)]
  · rw [List.filterMap_map]
    refine (List.filterMap_congr fun p _ => ?_).trans List.filterMap_some
    have hpart : partition '=' (quotePlus p.1 ++ "=" ++ quotePlus p.2) =
        (quotePlus p.1, quotePlus p.2) := partition_append (hsep p.1).2 _
    have hne : quotePlus p.1 ++ "=" ++ quotePlus p.2 ≠ "" := by
      rw [ne_eq, ← String.toList_inj]
      simp
    rw [Function.comp_apply, hpart]
    dsimp only
    rw [if_neg hne, if_pos (by simp), unquotePlus_quotePlus, unquotePlus_quotePlus]
  · intro t ht
    obtain ⟨p, -, rfl⟩ := List.mem_map.mp ht
    simp [hsep]

/-- A query string needs no quoting in a URL. -/
theorem mem_toList_urlencode {l : List (String × String)} {c : Char}
    (h : c ∈ (urlencode l).toList) : 32 < c.toNat ∧ c ≠ '#' := by
  have hquoted : ∀ {s : String} {c : Char}, c ∈ (quotePlus s).toList → 32 < c.toNat ∧ c ≠ '#' := by
    intro s c hc
    obtain ⟨-, hgt, hne⟩ := mem_toList_quotePlus hc
    exact ⟨hgt, fun heq => hne (by simp [heq])⟩
  have hpair : ∀ {p : String × String} {c : Char},
      c ∈ (quotePlus p.1 ++ "=" ++ quotePlus p.2).toList → 32 < c.toNat ∧ c ≠ '#' := by
    intro p c hc
    simp only [String.toList_append, List.mem_append] at hc
    rcases hc with (hc | hc) | hc
    · exact hquoted hc
    · rw [List.mem_singleton.mp hc]
      decide
    · exact hquoted hc
  unfold urlencode at h
  cases l with
  | nil => cases h
  | cons p l =>
    rw [List.map_cons, toList_join_cons, List.mem_append] at h
    rcases h with h | h
    · exact hpair h
    · obtain ⟨t, ht, hc⟩ := List.mem_flatMap.mp h
      obtain ⟨q, -, rfl⟩ := List.mem_map.mp ht
      rcases List.mem_append.mp hc with hc | hc
      · rw [List.mem_singleton.mp hc]
        decide
      · exact hpair hc

theorem unquoteToBytes_eq_nil {cs : List Char} (h : unquoteToBytes cs = []) : cs = [] := by
  cases cs with
  | nil => rfl
  | cons c cs =>
    unfold unquoteToBytes at h
    split at h
    · assumption
    · split at h <;> cases h
    · cases h

theorem unquoteLoop_eq_nil {run cs : List Char} (h : unquoteLoop run cs = []) :
    run = [] ∧ cs = [] := by
  induction cs generalizing run with
  | nil => exact ⟨unquoteToBytes_eq_nil (decodeReplace_eq_nil h), rfl⟩
  | cons c cs ih =>
    rw [unquoteLoop] at h
    split at h
    · exact absurd (ih h).1 (List.append_ne_nil_of_right_ne_nil _ (List.cons_ne_nil _ _))
    · exact absurd (List.append_eq_nil_iff.mp h).2 (List.cons_ne_nil _ _)

/-- Only a blank is decoded to a blank. -/
theorem unquotePlus_eq_empty {s : String} : unquotePlus s = "" ↔ s = "" := by
  constructor
  · intro h
    have hreplaced : replaceChar '+' ' ' s = "" := by
      unfold unquotePlus unquote at h
      split at h
      · have hloop := congrArg String.toList h
        rw [String.toList_ofList, String.toList_empty] at hloop
        exact String.toList_eq_nil_iff.mp (unquoteLoop_eq_nil hloop).2
      · exact h
    have hlist := congrArg String.toList hreplaced
    rw [replaceChar, String.toList_ofList, String.toList_empty] at hlist
    exact String.toList_eq_nil_iff.mp (List.map_eq_nil_iff.mp hlist)
  · rintro rfl
    rfl

/-- Without blank values the pairs are those with a value. -/
theorem parseQsl_false (qs : String) :
    parseQsl false qs = (parseQsl true qs).filter fun p => p.2 ≠ "" := by
  unfold parseQsl
  rw [List.filter_filterMap]
  refine List.filterMap_congr fun nameValue _ => ?_
  obtain ⟨name, value⟩ := partition '=' nameValue
  dsimp only
  by_cases hempty : nameValue = ""
  · rw [if_pos hempty, if_pos hempty]
    rfl
  · rw [if_neg hempty, if_neg hempty]
    have hdecoded : (unquotePlus value = "") = (value = "") := propext unquotePlus_eq_empty
    by_cases hvalue : value = ""
    · simp [hvalue, Option.filter_some, unquotePlus_eq_empty.mpr]
    · simp [hvalue, Option.filter_some, hdecoded]

/-! ## The dictionary of a list of pairs -/

/-- `d[key] = value` on the items of a dictionary. -/
def setItem (d : List (String × String)) (p : String × String) : List (String × String) :=
  if d.any (fun q => q.1 == p.1) then d.map fun q => if q.1 = p.1 then p else q else d ++ [p]

/-- `d.update(pairs)`. -/
def updateItems (d pairs : List (String × String)) : List (String × String) :=
  pairs.foldl setItem d

/-- The last pair of each key, as `dict(l)` keeps it. -/
def IsLast (l : List (String × String)) (p : String × String) : Prop :=
  ∃ before after, l = before ++ p :: after ∧ ∀ q ∈ after, q.1 ≠ p.1

theorem IsLast.mem {l : List (String × String)} {p : String × String} (h : IsLast l p) : p ∈ l := by
  obtain ⟨before, after, rfl, -⟩ := h
  simp

theorem isLast_append {l l' : List (String × String)} {p : String × String} :
    IsLast (l ++ l') p ↔ IsLast l' p ∨ IsLast l p ∧ ∀ q ∈ l', q.1 ≠ p.1 := by
  constructor
  · rintro ⟨before, after, he, hafter⟩
    rcases List.append_eq_append_iff.mp he with ⟨mid, hbefore, hl'⟩ | ⟨mid, hl, hmid⟩
    · exact Or.inl ⟨mid, after, hl', hafter⟩
    · cases mid with
      | nil => exact Or.inl ⟨[], after, hmid.symm, hafter⟩
      | cons q mid =>
        obtain ⟨rfl, rfl⟩ := List.cons.inj hmid
        exact Or.inr ⟨⟨before, mid, hl, fun r hr => hafter r (List.mem_append_left _ hr)⟩,
          fun r hr => hafter r (List.mem_append_right _ hr)⟩
  · rintro (⟨before, after, rfl, hafter⟩ | ⟨⟨before, after, rfl, hafter⟩, hne⟩)
    · exact ⟨l ++ before, after, by simp, hafter⟩
    · refine ⟨before, after ++ l', by simp, fun q hq => ?_⟩
      exact (List.mem_append.mp hq).elim (hafter q) (hne q)

theorem isLast_singleton {p q : String × String} : IsLast [q] p ↔ p = q := by
  constructor
  · exact fun h => List.mem_singleton.mp h.mem
  · rintro rfl
    exact ⟨[], [], rfl, by simp⟩

/-- Every key has a last pair. -/
theorem exists_isLast {l : List (String × String)} {p : String × String} (h : p ∈ l) :
    ∃ q, IsLast l q ∧ q.1 = p.1 := by
  induction l using List.reverseRecOn with
  | nil => cases h
  | append_singleton l r ih =>
    by_cases hr : r.1 = p.1
    · exact ⟨r, isLast_append.mpr (Or.inl (isLast_singleton.mpr rfl)), hr⟩
    · rcases List.mem_append.mp h with h | h
      · obtain ⟨q, hq, hkey⟩ := ih h
        refine ⟨q, isLast_append.mpr (Or.inr ⟨hq, fun r' hr' => ?_⟩), hkey⟩
        rw [List.mem_singleton.mp hr', hkey]
        exact hr
      · exact absurd (congrArg Prod.fst (List.mem_singleton.mp h)).symm hr

/-- Without repeated keys every pair is the last. -/
theorem isLast_of_nodup {l : List (String × String)} (h : (l.map Prod.fst).Nodup)
    {p : String × String} (hp : p ∈ l) : IsLast l p := by
  obtain ⟨q, hq, hkey⟩ := exists_isLast hp
  rwa [List.inj_on_of_nodup_map h hq.mem hp hkey] at hq

theorem any_key_eq (d : List (String × String)) (key : String) :
    (d.any fun q => q.1 == key) = (d.lookup key).isSome := by
  induction d with
  | nil => rfl
  | cons p d ih =>
    obtain ⟨k, v⟩ := p
    rw [List.any_cons, List.lookup_cons, ih]
    by_cases h : key = k
    · simp [h]
    · simp [beq_false_of_ne h, beq_false_of_ne (Ne.symm h)]

/-- A new key goes to the end. -/
theorem setItem_of_lookup_none {d : List (String × String)} {p : String × String}
    (h : d.lookup p.1 = none) : setItem d p = d ++ [p] := by
  unfold setItem
  rw [any_key_eq, h]
  rfl

/-- A key that is there keeps its place. -/
theorem map_fst_setItem {d : List (String × String)} {p : String × String}
    (h : (d.lookup p.1).isSome) : (setItem d p).map Prod.fst = d.map Prod.fst := by
  unfold setItem
  rw [any_key_eq, if_pos h, List.map_map]
  refine List.map_congr_left fun q _ => ?_
  rw [Function.comp_apply]
  split
  · next hq => exact hq.symm
  · rfl

theorem nodup_keys_setItem {d : List (String × String)} (h : (d.map Prod.fst).Nodup)
    (p : String × String) : ((setItem d p).map Prod.fst).Nodup := by
  cases hlookup : d.lookup p.1 with
  | some v => rwa [map_fst_setItem (by rw [hlookup]; rfl)]
  | none =>
    rw [setItem_of_lookup_none hlookup, List.map_append, List.map_singleton]
    refine List.nodup_append.mpr ⟨h, List.nodup_singleton _, ?_⟩
    rintro k hk k' hk' rfl
    obtain ⟨q, hq, hqk⟩ := List.mem_map.mp hk
    rw [List.mem_singleton.mp hk'] at hqk
    exact bne_iff_ne.mp (List.lookup_eq_none_iff.mp hlookup q hq) hqk.symm

theorem lookup_setItem (d : List (String × String)) (key value other : String) :
    (setItem d (key, value)).lookup other =
      if other = key then some value else d.lookup other := by
  have hmap : (d.map fun q => if q.1 = key then (key, value) else q).lookup other =
      if other = key then (d.lookup other).map fun _ => value else d.lookup other := by
    induction d with
    | nil => simp
    | cons p d ih =>
      obtain ⟨k, v⟩ := p
      rw [List.map_cons, List.lookup_cons, List.lookup_cons]
      by_cases hk : k = key
      · subst hk
        by_cases ho : other = k
        · simp [ho]
        · simpa [ho, beq_false_of_ne ho] using ih
      · rw [if_neg hk]
        by_cases ho : other = k
        · subst ho
          simp [hk]
        · simpa [beq_false_of_ne ho] using ih
  cases hlookup : d.lookup key with
  | some v =>
    unfold setItem
    rw [any_key_eq, hlookup, Option.isSome_some, if_pos rfl]
    refine hmap.trans ?_
    by_cases ho : other = key
    · rw [if_pos ho, if_pos ho, ho, hlookup]
      rfl
    · rw [if_neg ho, if_neg ho]
  | none =>
    rw [setItem_of_lookup_none hlookup, List.lookup_append]
    by_cases ho : other = key
    · rw [if_pos ho, ho, hlookup]
      simp
    · simp [ho, List.lookup_cons, beq_false_of_ne ho]

theorem mem_setItem {d : List (String × String)} {p q : String × String} :
    q ∈ setItem d p ↔ q = p ∨ q ∈ d ∧ q.1 ≠ p.1 := by
  unfold setItem
  split
  · next hany =>
    obtain ⟨q', hq', hkey⟩ := List.any_eq_true.mp hany
    rw [List.mem_map]
    constructor
    · rintro ⟨r, hr, rfl⟩
      split
      · exact Or.inl rfl
      · next hne => exact Or.inr ⟨hr, hne⟩
    · rintro (rfl | ⟨hq, hne⟩)
      · exact ⟨q', hq', if_pos (beq_iff_eq.mp hkey)⟩
      · exact ⟨q, hq, if_neg hne⟩
  · next hany =>
    rw [List.mem_append, List.mem_singleton, or_comm]
    refine or_congr_right ⟨fun hq => ⟨hq, fun hkey => ?_⟩, fun hq => hq.1⟩
    exact hany (List.any_eq_true.mpr ⟨q, hq, beq_iff_eq.mpr hkey⟩)

/-- Updating from the empty dictionary keeps the last pair of each key, once. -/
theorem nodup_keys_updateItems (l : List (String × String)) :
    ((updateItems [] l).map Prod.fst).Nodup := by
  have hall : ∀ d : List (String × String), (d.map Prod.fst).Nodup →
      ((updateItems d l).map Prod.fst).Nodup := by
    induction l with
    | nil => exact fun d hd => hd
    | cons p l ih => exact fun d hd => ih _ (nodup_keys_setItem hd p)
  exact hall [] List.nodup_nil

theorem mem_updateItems {l : List (String × String)} {p : String × String} :
    p ∈ updateItems [] l ↔ IsLast l p := by
  induction l using List.reverseRecOn with
  | nil => exact iff_of_false (by simp [updateItems]) fun h => by cases h.mem
  | append_singleton l q ih =>
    have hstep : updateItems [] (l ++ [q]) = setItem (updateItems [] l) q := by
      unfold updateItems
      rw [List.foldl_append, List.foldl_cons, List.foldl_nil]
    rw [hstep, mem_setItem, ih, isLast_append, isLast_singleton]
    simp [eq_comm]

end Py
