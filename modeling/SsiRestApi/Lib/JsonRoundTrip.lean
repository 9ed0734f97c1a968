import SsiRestApi.Lib.Json
import SsiRestApi.Lib.JsonText

/-!
# What is written as JSON reads back

`json.loads` of what `json.dumps` writes.

    the text of a value reads back as the value                      (decode_dumps)
    its bytes load as the value                                      (loads_dumps)
    a member of a dictionary reads back as its value                 (get_toDoc)
-/

namespace Py

namespace JsonText

/-! ## Strings -/

theorem hexDigit_digitChar_all : ∀ d, d < 16 → hexDigit (Nat.digitChar d).toNat = some d := by
  decide

/-- Four hexadecimal digits read as the number. -/
theorem hexUnit_hex4 {n : Nat} (h : n < 0x10000) :
    hexUnit (Nat.digitChar (n / 4096 % 16)).toNat (Nat.digitChar (n / 256 % 16)).toNat
      (Nat.digitChar (n / 16 % 16)).toNat (Nat.digitChar (n % 16)).toNat = some n := by
  have hdigit : ∀ m, hexDigit (Nat.digitChar (m % 16)).toNat = some (m % 16) := fun m =>
    hexDigit_digitChar_all _ (Nat.mod_lt _ (by decide))
  unfold hexUnit
  rw [hdigit, hdigit, hdigit, hdigit]
  show some (((n / 4096 % 16 * 16 + n / 256 % 16) * 16 + n / 16 % 16) * 16 + n % 16) = some n
  congr 1
  omega

/-- What a unit behind a backslash reads as. -/
theorem scanChars_escapeUnit {n : Nat} (h : n < 0x10000) (cs : List Nat) :
    scanChars ((Json.escapeUnit n).map Char.toNat ++ cs) =
      (scanChars cs).map fun found => ((true, n) :: found.1, found.2) := by
  show scanChars (0x5c :: 0x75 :: (Nat.digitChar (n / 4096 % 16)).toNat ::
    (Nat.digitChar (n / 256 % 16)).toNat :: (Nat.digitChar (n / 16 % 16)).toNat ::
    (Nat.digitChar (n % 16)).toNat :: cs) = _
  rw [scanChars, hexUnit_hex4 h]
  cases scanChars cs <;> rfl

theorem scanChars_plain {c : Nat} (hquote : c ≠ 0x22) (hslash : c ≠ 0x5c) (hlow : 0x20 ≤ c)
    (cs : List Nat) :
    scanChars (c :: cs) = (scanChars cs).map fun found => ((false, c) :: found.1, found.2) := by
  have hnot : ¬ (c = 0x5c ∨ c < 0x20) := by omega
  rw [scanChars]
  · rw [if_neg hnot]
    cases scanChars cs <;> rfl
  all_goals
    intros
    contradiction

/-- What follows a backslash. -/
theorem scanChars_escaped {c e : Nat} (hu : c ≠ 0x75) (he : escaped c = some e) (cs : List Nat) :
    scanChars (0x5c :: c :: cs) =
      (scanChars cs).map fun found => ((false, e) :: found.1, found.2) := by
  rw [scanChars]
  · rw [he]
    cases scanChars cs <;> rfl
  all_goals
    intros
    contradiction

/-- A unit that starts no pair of surrogates stands for itself. -/
theorem joinSurrogates_cons {b : Bool} {n : Nat} (h : isHighSurrogate n = false)
    (more : List (Bool × Nat)) : joinSurrogates ((b, n) :: more) = n :: joinSurrogates more := by
  cases more with
  | nil => rfl
  | cons unit more =>
    rw [joinSurrogates, h]
    simp

theorem joinSurrogates_pair {n : Nat} (hlow : 0x10000 ≤ n) (hhigh : n < 0x110000)
    (more : List (Bool × Nat)) :
    joinSurrogates ((true, 0xd800 + (n - 0x10000) / 0x400) ::
      (true, 0xdc00 + (n - 0x10000) % 0x400) :: more) = n :: joinSurrogates more := by
  have hpair : (isHighSurrogate (0xd800 + (n - 0x10000) / 0x400) &&
      isLowSurrogate (0xdc00 + (n - 0x10000) % 0x400)) = true := by
    unfold isHighSurrogate isLowSurrogate
    simp only [Bool.and_eq_true, decide_eq_true_eq]
    omega
  have hsum : 0x10000 + (0xd800 + (n - 0x10000) / 0x400 - 0xd800) * 0x400 +
      (0xdc00 + (n - 0x10000) % 0x400 - 0xdc00) = n := by omega
  rw [joinSurrogates, Bool.and_self, Bool.true_and, if_pos hpair, hsum]

/-- A character is no surrogate. -/
theorem toNat_valid (c : Char) : c.toNat < 0xd800 ∨ 0xdfff < c.toNat ∧ c.toNat < 0x110000 :=
  c.valid

theorem not_isHighSurrogate (c : Char) : isHighSurrogate c.toNat = false := by
  have hvalid := toNat_valid c
  have hnot : ¬ (0xd800 ≤ c.toNat ∧ c.toNat < 0xdc00) := by omega
  simpa [isHighSurrogate] using hnot

/-- A character inside the quotes reads as units that stand for it. -/
theorem scanChars_escapeChar (ensureAscii : Bool) (c : Char) : ∃ units : List (Bool × Nat),
    (∀ cs, scanChars ((Json.escapeChar ensureAscii c).map Char.toNat ++ cs) =
      (scanChars cs).map fun found => (units ++ found.1, found.2)) ∧
    ∀ more, joinSurrogates (units ++ more) = c.toNat :: joinSurrogates more := by
  have hhigh := not_isHighSurrogate c
  have hlt : c.toNat < 0x110000 := by have := toNat_valid c; omega
  have hjoin : ∀ (b : Bool) more, joinSurrogates ([(b, c.toNat)] ++ more) =
      c.toNat :: joinSurrogates more := fun b more => joinSurrogates_cons hhigh more
  unfold Json.escapeChar
  split
  · next hc =>
    subst hc
    exact ⟨[(false, 0x22)], fun cs => scanChars_escaped (by decide) rfl cs, hjoin false⟩
  next hquote =>
  split
  · next hc =>
    subst hc
    exact ⟨[(false, 0x5c)], fun cs => scanChars_escaped (by decide) rfl cs, hjoin false⟩
  next hslash =>
  have hquote' : c.toNat ≠ 0x22 := fun h => hquote (Char.toNat_inj.mp h)
  have hslash' : c.toNat ≠ 0x5c := fun h => hslash (Char.toNat_inj.mp h)
  split
  case h_1 hn | h_2 hn | h_3 hn | h_4 hn | h_5 hn =>
    refine ⟨[(false, c.toNat)], fun cs => ?_, hjoin false⟩
    rw [hn]
    exact scanChars_escaped (by decide) rfl cs
  case h_6 =>
    split
    · next hlow =>
      exact ⟨[(true, c.toNat)], fun cs => scanChars_escapeUnit (by omega) cs, hjoin true⟩
    next hlow =>
    split
    · exact ⟨[(false, c.toNat)], fun cs => scanChars_plain hquote' hslash' (by omega) cs,
        hjoin false⟩
    split
    · next hunit => exact ⟨[(true, c.toNat)], fun cs => scanChars_escapeUnit hunit cs, hjoin true⟩
    · next hunit =>
      refine ⟨[(true, 0xd800 + (c.toNat - 0x10000) / 0x400),
        (true, 0xdc00 + (c.toNat - 0x10000) % 0x400)], fun cs => ?_, fun more => ?_⟩
      · rw [List.map_append, List.append_assoc, scanChars_escapeUnit (by omega),
          scanChars_escapeUnit (by omega)]
        cases scanChars cs <;> rfl
      · exact joinSurrogates_pair (by omega) hlt more

/-- A quoted text reads back, behind the opening quote. -/
theorem scanString_quoted (ensureAscii : Bool) (s : List Char) (rest : List Nat) :
    scanString ((s.flatMap (Json.escapeChar ensureAscii)).map Char.toNat ++ 0x22 :: rest) =
      some (s.map Char.toNat, rest) := by
  have hchars : ∃ units, scanChars ((s.flatMap (Json.escapeChar ensureAscii)).map Char.toNat ++
      0x22 :: rest) = some (units, rest) ∧ joinSurrogates units = s.map Char.toNat := by
    induction s with
    | nil => exact ⟨[], by rw [List.flatMap_nil, List.map_nil, List.nil_append, scanChars], rfl⟩
    | cons c s ih =>
      obtain ⟨units, hscan, hjoin⟩ := ih
      obtain ⟨own, hown, hfirst⟩ := scanChars_escapeChar ensureAscii c
      refine ⟨own ++ units, ?_, ?_⟩
      · rw [List.flatMap_cons, List.map_append, List.append_assoc, hown, hscan]
        rfl
      · rw [hfirst, hjoin]
        rfl
  obtain ⟨units, hscan, hjoin⟩ := hchars
  unfold scanString
  rw [hscan, Option.map_some, hjoin]

/-! ## Numbers -/

/-- What ends a value inside an array or an object, or the end of the text. -/
def Delimited (rest : List Nat) : Prop :=
  ∀ c, rest.head? = some c → c = 0x2c ∨ c = 0x5d ∨ c = 0x7d

/-- Not one of the characters that numbers go on with. -/
def EndsDigits (rest : List Nat) : Prop := ∀ c, rest.head? = some c → isDigit c = false

theorem Delimited.endsDigits {rest : List Nat} (h : Delimited rest) : EndsDigits rest := by
  intro c hc
  rcases h c hc with rfl | rfl | rfl <;> rfl

theorem dropWhile_digits {ds rest : List Nat} (hds : ∀ c ∈ ds, isDigit c = true)
    (hrest : EndsDigits rest) : (ds ++ rest).dropWhile isDigit = rest := by
  rw [List.dropWhile_append_of_pos hds]
  cases rest with
  | nil => rfl
  | cons c rest => rw [List.dropWhile_cons_of_neg (by rw [hrest c rfl]; decide)]

/-- The digits of an integer: a zero alone, or a first one that is not. -/
def IsWhole (whole : List Nat) : Prop :=
  whole = [0x30] ∨ ∃ d ds, whole = d :: ds ∧ d ≠ 0x30 ∧ ∀ c ∈ d :: ds, isDigit c = true

/-- A fraction, if it is there. -/
def IsFraction (fraction : List Nat) : Prop :=
  fraction = [] ∨ ∃ d ds, fraction = 0x2e :: d :: ds ∧ ∀ c ∈ d :: ds, isDigit c = true

/-- An exponent, if it is there. -/
def IsExponent (exponent : List Nat) : Prop :=
  exponent = [] ∨ ∃ e sign d ds, exponent = e :: (sign ++ d :: ds) ∧ (e = 0x65 ∨ e = 0x45) ∧
    (sign = [] ∨ sign = [0x2b] ∨ sign = [0x2d]) ∧ ∀ c ∈ d :: ds, isDigit c = true

theorem skipInteger_whole {whole rest : List Nat} (h : IsWhole whole) (hrest : EndsDigits rest) :
    skipInteger (whole ++ rest) = some rest := by
  rcases h with rfl | ⟨d, ds, rfl, hd, hds⟩
  · rfl
  · obtain ⟨hdigit, hds⟩ := List.forall_mem_cons.mp hds
    rw [List.cons_append, skipInteger, if_neg hd, if_pos hdigit, dropWhile_digits hds hrest]

theorem skipFraction_fraction {fraction rest : List Nat} (h : IsFraction fraction)
    (hrest : EndsDigits rest) (hpoint : rest.head? ≠ some 0x2e) :
    skipFraction (fraction ++ rest) = rest := by
  rcases h with rfl | ⟨d, ds, rfl, hds⟩
  · unfold skipFraction
    split
    · next heq =>
      rw [List.nil_append] at heq
      rw [heq] at hpoint
      exact absurd rfl hpoint
    · rfl
  · obtain ⟨hdigit, hds⟩ := List.forall_mem_cons.mp hds
    rw [List.cons_append, List.cons_append, skipFraction, if_pos hdigit, dropWhile_digits hds hrest]

theorem skipExponent_exponent {exponent rest : List Nat} (h : IsExponent exponent)
    (hrest : EndsDigits rest) (hmark : ∀ c, rest.head? = some c → c ≠ 0x65 ∧ c ≠ 0x45) :
    skipExponent (exponent ++ rest) = rest := by
  rcases h with rfl | ⟨e, sign, d, ds, rfl, he, hsign, hds⟩
  · cases rest with
    | nil => rfl
    | cons c rest =>
      have hc := hmark c rfl
      rw [List.nil_append, skipExponent, if_neg fun h => h.1.elim hc.1 hc.2]
  · have hskip : skipSign (sign ++ d :: ds ++ rest) = d :: ds ++ rest := by
      rcases hsign with rfl | rfl | rfl
      · have hdigit := hds d List.mem_cons_self
        have hd : ¬ (d = 0x2b ∨ d = 0x2d) := by
          rintro (rfl | rfl) <;> exact absurd hdigit (by decide)
        rw [List.nil_append, List.cons_append, skipSign, if_neg hd]
      · rfl
      · rfl
    have hhead : (d :: ds ++ rest).head?.any isDigit = true := hds d List.mem_cons_self
    rw [List.cons_append, skipExponent, hskip, if_pos ⟨he, hhead⟩, dropWhile_digits hds hrest]

theorem Delimited.skipFraction_eq {fraction rest : List Nat} (h : Delimited rest)
    {exponent : List Nat} (hexponent : IsExponent exponent) (hfraction : IsFraction fraction) :
    skipFraction (fraction ++ (exponent ++ rest)) = exponent ++ rest := by
  have hhead : ∀ c, (exponent ++ rest).head? = some c → isDigit c = false ∧ c ≠ 0x2e := by
    intro c hc
    rcases hexponent with rfl | ⟨e, sign, d, ds, rfl, he, -, -⟩
    · rcases h c hc with rfl | rfl | rfl <;> decide
    · obtain rfl : e = c := Option.some.inj hc
      rcases he with rfl | rfl <;> decide
  exact skipFraction_fraction hfraction (fun c hc => (hhead c hc).1)
    (fun hpoint => (hhead _ hpoint).2 rfl)

theorem Delimited.skipExponent_eq {rest : List Nat} (h : Delimited rest) {exponent : List Nat}
    (hexponent : IsExponent exponent) : skipExponent (exponent ++ rest) = rest := by
  refine skipExponent_exponent hexponent h.endsDigits fun c hc => ?_
  rcases h c hc with rfl | rfl | rfl <;> decide

theorem IsWhole.head {whole : List Nat} (h : IsWhole whole) :
    ∃ d ds, whole = d :: ds ∧ isDigit d = true := by
  rcases h with rfl | ⟨d, ds, rfl, -, hds⟩
  · exact ⟨0x30, [], rfl, rfl⟩
  · exact ⟨d, ds, rfl, hds d List.mem_cons_self⟩

/-- Behind the sign, a number ends where its fraction and exponent do; without either it is an
integer. -/
theorem number_behind_sign (sign : List Nat) {whole fraction exponent rest cs : List Nat}
    (hwhole : IsWhole whole) (hfraction : IsFraction fraction) (hexponent : IsExponent exponent)
    (hrest : Delimited rest)
    (hcs : cs = sign ++ (whole ++ (fraction ++ (exponent ++ rest)))) (negative : Bool) :
    ((skipInteger (whole ++ (fraction ++ (exponent ++ rest)))).bind fun behind =>
      if (skipExponent (skipFraction behind)).length < behind.length then
        some (Doc.float (cs.take (cs.length - (skipExponent (skipFraction behind)).length)),
          skipExponent (skipFraction behind))
      else (integerValue ((whole ++ (fraction ++ (exponent ++ rest))).take
        ((whole ++ (fraction ++ (exponent ++ rest))).length - behind.length))).bind fun n =>
          some (Doc.int (if negative then -(n : Int) else n), skipExponent (skipFraction behind))) =
    if fraction ++ exponent = [] then
      (integerValue whole).map fun n => (.int (if negative then -(n : Int) else n), rest)
    else some (.float (sign ++ (whole ++ (fraction ++ exponent))), rest) := by
  have hends : EndsDigits (fraction ++ (exponent ++ rest)) := by
    intro c hc
    rcases hfraction with rfl | ⟨d, ds, rfl, -⟩
    · rcases hexponent with rfl | ⟨e, sign, d, ds, rfl, he, -, -⟩
      · exact hrest.endsDigits c hc
      · obtain rfl : e = c := Option.some.inj hc
        rcases he with rfl | rfl <;> rfl
    · obtain rfl : 0x2e = c := Option.some.inj hc
      rfl
  rw [skipInteger_whole hwhole hends, Option.bind_some, hrest.skipFraction_eq hexponent hfraction,
    hrest.skipExponent_eq hexponent]
  by_cases hnone : fraction ++ exponent = []
  · obtain ⟨rfl, rfl⟩ := List.append_eq_nil_iff.mp hnone
    have htake : (whole ++ rest).take ((whole ++ rest).length - rest.length) = whole := by
      rw [List.length_append, Nat.add_sub_cancel, List.take_left]
    simp only [List.nil_append, Nat.lt_irrefl, if_false, if_true, htake]
    cases integerValue whole <;> rfl
  · have hlt : rest.length < (fraction ++ (exponent ++ rest)).length := by
      have hpos := List.length_pos_of_ne_nil hnone
      simp only [List.length_append] at hpos ⊢
      omega
    have hsplit : cs = (sign ++ (whole ++ (fraction ++ exponent))) ++ rest := by
      rw [hcs]
      simp only [List.append_assoc]
    rw [if_pos hlt, if_neg hnone, hsplit, List.length_append, Nat.add_sub_cancel, List.take_left]

theorem matchNumber_append {sign whole fraction exponent rest : List Nat}
    (hsign : sign = [] ∨ sign = [0x2d]) (hwhole : IsWhole whole) (hfraction : IsFraction fraction)
    (hexponent : IsExponent exponent) (hrest : Delimited rest) :
    matchNumber (sign ++ (whole ++ (fraction ++ (exponent ++ rest)))) =
      if fraction ++ exponent = [] then
        (integerValue whole).map fun n => (.int (if sign = [0x2d] then -(n : Int) else n), rest)
      else some (.float (sign ++ (whole ++ (fraction ++ exponent))), rest) := by
  obtain ⟨d, ds, hd, hdigit⟩ := hwhole.head
  have hne : d ≠ 0x2d := by
    rintro rfl
    cases hdigit
  have hminus : ∀ cs : List Nat, ((whole ++ cs).head? == some 0x2d) = false := by
    intro cs
    rw [hd]
    simpa using hne
  rcases hsign with rfl | rfl
  · unfold matchNumber
    rw [List.nil_append, hminus]
    exact number_behind_sign [] hwhole hfraction hexponent hrest rfl false
  · exact number_behind_sign [0x2d] hwhole hfraction hexponent hrest rfl true

/-- A number that is no integer, as its text. -/
def IsFloatText (cs : List Nat) : Prop :=
  ∃ sign whole fraction exponent, cs = sign ++ (whole ++ (fraction ++ exponent)) ∧
    (sign = [] ∨ sign = [0x2d]) ∧ IsWhole whole ∧ IsFraction fraction ∧ IsExponent exponent ∧
    fraction ++ exponent ≠ []

theorem isDigit_toNat {c : Char} (h : c.isDigit = true) : isDigit c.toNat = true := by
  rw [Char.isDigit_iff_toNat] at h
  have hzero : '0'.toNat = 48 := rfl
  have hnine : '9'.toNat = 57 := rfl
  have hrange : 0x30 ≤ c.toNat ∧ c.toNat ≤ 0x39 := by omega
  simpa [isDigit] using hrange

/-- A positive number starts with another digit than zero. -/
theorem head_toDigits {n : Nat} (h : 0 < n) : ∃ d ds, Nat.toDigits 10 n = d :: ds ∧ d ≠ '0' := by
  induction n using Nat.strongRecOn with
  | ind n ih =>
    rw [Nat.toDigits_eq_if (by decide)]
    split
    · next hlt =>
      have hdigit : ∀ m, m < 10 → 0 < m → Nat.digitChar m ≠ '0' := by decide
      exact ⟨_, [], rfl, hdigit n hlt h⟩
    · obtain ⟨d, ds, hd, hne⟩ := ih (n / 10) (by omega) (by omega)
      exact ⟨d, ds ++ [Nat.digitChar (n % 10)], by rw [hd]; rfl, hne⟩

theorem isWhole_toDigits (n : Nat) : IsWhole ((Nat.toDigits 10 n).map Char.toNat) := by
  rcases Nat.eq_zero_or_pos n with rfl | hpos
  · exact Or.inl rfl
  · obtain ⟨d, ds, hd, hne⟩ := head_toDigits hpos
    refine Or.inr ⟨d.toNat, ds.map Char.toNat, by rw [hd]; rfl, fun h => hne (Char.toNat_inj.mp h), ?_⟩
    rw [← List.map_cons, ← hd]
    intro c hc
    obtain ⟨c, hmem, rfl⟩ := List.mem_map.mp hc
    exact isDigit_toNat (Nat.isDigit_of_mem_toDigits (by decide) (by decide) hmem)

theorem integerValue_toDigits {n : Nat} (h : (Nat.toDigits 10 n).length ≤ 4300) :
    integerValue ((Nat.toDigits 10 n).map Char.toNat) = some n := by
  have hfold : ∀ (cs : List Char) (k : Nat),
      (cs.map Char.toNat).foldl (fun n c => 10 * n + (c - 0x30)) k = Nat.ofDigitChars 10 cs k := by
    intro cs k
    rw [List.foldl_map, Nat.ofDigitChars_eq_foldl]
    rfl
  unfold integerValue
  rw [List.length_map, if_pos h, hfold, Nat.ofDigitChars_ten_toDigits]

/-- What starts as a number is no constant. -/
theorem scanWord_eq_matchNumber {sign whole : List Nat} (hsign : sign = [] ∨ sign = [0x2d])
    (hwhole : IsWhole whole) (cs : List Nat) :
    scanWord (sign ++ (whole ++ cs)) = matchNumber (sign ++ (whole ++ cs)) := by
  obtain ⟨d, ds, rfl, hdigit⟩ := hwhole.head
  have hrange : 0x30 ≤ d ∧ d ≤ 0x39 := by simpa [isDigit] using hdigit
  have hnone : constants.find? (fun k => k.1.isPrefixOf (sign ++ (d :: ds ++ cs))) = none := by
    rw [List.find?_eq_none]
    intro k hk
    simp only [constants, codePoints, List.mem_cons, List.not_mem_nil, or_false] at hk
    rcases hsign with rfl | rfl <;> rcases hk with rfl | rfl | rfl | rfl | rfl | rfl <;>
      simp <;> omega
  unfold scanWord
  rw [hnone]

end JsonText

open JsonText

/-! ## Values -/

/-- `float.__repr__` of a number. -/
def PyFloat.Literal : PyFloat → Prop
  | .fin _ repr => IsFloatText (codePoints repr)
  | _ => True

theorem codePoints_toString (i : Int) : codePoints (toString i) =
    (if i < 0 then [0x2d] else []) ++ (Nat.toDigits 10 i.natAbs).map Char.toNat := by
  unfold codePoints
  cases i with
  | ofNat n =>
    show (Nat.repr n).toList.map Char.toNat = _
    rw [Nat.toList_repr]
    rfl
  | negSucc n =>
    show ("-" ++ Nat.repr (n + 1)).toList.map Char.toNat = _
    rw [String.toList_append, Nat.toList_repr, if_pos (Int.negSucc_lt_zero n), List.map_append]
    rfl

theorem scanWord_int {i : Int} (h : (Nat.toDigits 10 i.natAbs).length ≤ 4300) {rest : List Nat}
    (hrest : Delimited rest) :
    scanWord (codePoints (toString i) ++ rest) = some (.int i, rest) := by
  have hwhole := isWhole_toDigits i.natAbs
  have hsign : (if i < 0 then [0x2d] else ([] : List Nat)) = [] ∨
      (if i < 0 then [0x2d] else ([] : List Nat)) = [0x2d] := by
    split
    · exact Or.inr rfl
    · exact Or.inl rfl
  have hmatch := matchNumber_append hsign hwhole (Or.inl rfl) (Or.inl rfl) hrest
  simp only [List.nil_append] at hmatch
  rw [codePoints_toString, List.append_assoc, scanWord_eq_matchNumber hsign hwhole, hmatch,
    integerValue_toDigits h, if_pos trivial, Option.map_some]
  congr 3
  split
  · exact (Int.eq_neg_natAbs_of_nonpos (by omega)).symm
  · exact Int.natAbs_of_nonneg (by omega)

theorem scanWord_float {f : PyFloat} (h : f.Literal) {rest : List Nat} (hrest : Delimited rest) :
    scanWord (codePoints (Json.floatText f) ++ rest) =
      some (.float (codePoints (Json.floatText f)), rest) := by
  cases f with
  | nan => rfl
  | inf negative => cases negative <;> rfl
  | fin value repr =>
    obtain ⟨sign, whole, fraction, exponent, htext, hsign, hwhole, hfraction, hexponent, hne⟩ := h
    have hmatch := matchNumber_append hsign hwhole hfraction hexponent hrest
    rw [if_neg hne] at hmatch
    show scanWord (codePoints repr ++ rest) = some (.float (codePoints repr), rest)
    rw [htext]
    simp only [List.append_assoc]
    rw [scanWord_eq_matchNumber hsign hwhole, hmatch]

mutual

/-- Floats are written as floats, and integers within what the interpreter converts. -/
def Json.Readable : Json → Prop
  | .int i => (Nat.toDigits 10 i.natAbs).length ≤ 4300
  | .float f => f.Literal
  | .arr items => Json.ReadableItems items
  | .obj fields => Json.ReadableFields fields
  | _ => True

def Json.ReadableItems : List Json → Prop
  | [] => True
  | v :: items => v.Readable ∧ Json.ReadableItems items

def Json.ReadableFields : List (String × Json) → Prop
  | [] => True
  | (_, v) :: fields => v.Readable ∧ Json.ReadableFields fields

end

mutual

/-- The document a value is read as; a foreign object is never written. -/
def Json.toDoc : Json → Doc
  | .null => .null
  | .bool b => .bool b
  | .int i => .int i
  | .float f => .float (codePoints (Json.floatText f))
  | .str s => .str (codePoints s)
  | .arr items => .arr (Json.toDocs items)
  | .obj fields => .obj (Json.toMembers fields)
  | .foreign _ => .null

def Json.toDocs : List Json → List Doc
  | [] => []
  | v :: items => v.toDoc :: Json.toDocs items

def Json.toMembers : List (String × Json) → List (List Nat × Doc)
  | [] => []
  | (key, v) :: fields => (codePoints key, v.toDoc) :: Json.toMembers fields

end

theorem codePoints_append (s t : String) : codePoints (s ++ t) = codePoints s ++ codePoints t := by
  unfold codePoints
  rw [String.toList_append, List.map_append]

theorem codePoints_quote (ensureAscii : Bool) (s : String) : codePoints (Json.quote ensureAscii s) =
    0x22 :: ((s.toList.flatMap (Json.escapeChar ensureAscii)).map Char.toNat ++ [0x22]) := by
  unfold codePoints Json.quote
  rw [String.toList_ofList, List.map_append, List.map_cons]
  rfl

namespace JsonText

/-- What a constant or a number starts with. -/
def startsWord (c : Nat) : Bool := [0x6e, 0x74, 0x66, 0x4e, 0x49, 0x2d].contains c || isDigit c

theorem startsWord_of_scanWord {cs : List Nat} {found : Doc × List Nat}
    (h : scanWord cs = some found) : ∃ c more, cs = c :: more ∧ startsWord c = true := by
  unfold scanWord at h
  split at h
  · next name v hfind =>
    have hmem := List.mem_of_find?_eq_some hfind
    have hprefix := List.find?_some hfind
    obtain ⟨more, rfl⟩ := List.isPrefixOf_iff_prefix.mp hprefix
    simp only [constants, codePoints, List.mem_cons, List.not_mem_nil, or_false,
      Prod.mk.injEq] at hmem
    rcases hmem with ⟨rfl, -⟩ | ⟨rfl, -⟩ | ⟨rfl, -⟩ | ⟨rfl, -⟩ | ⟨rfl, -⟩ | ⟨rfl, -⟩ <;>
      exact ⟨_, _, rfl, rfl⟩
  · unfold matchNumber at h
    obtain ⟨behind, hbehind, -⟩ := Option.bind_eq_some_iff.mp h
    cases cs with
    | nil => cases hbehind
    | cons c cs =>
      refine ⟨c, cs, rfl, ?_⟩
      unfold startsWord
      by_cases hminus : c = 0x2d
      · rw [hminus]
        rfl
      · have hhead : ((c :: cs).head? == some 0x2d) = false := by simpa using hminus
        rw [hhead, if_neg (by decide), skipInteger] at hbehind
        rw [Bool.or_eq_true]
        right
        split at hbehind
        · next hzero =>
          rw [hzero]
          rfl
        · split at hbehind
          · assumption
          · cases hbehind

/-- What is a constant or a number is scanned as one. -/
theorem scanOnce_of_scanWord {fuel : Nat} {cs : List Nat} {found : Doc × List Nat}
    (hfuel : 2 * cs.length ≤ fuel) (h : scanWord cs = some found) :
    scanOnce fuel cs = some found := by
  obtain ⟨c, more, rfl, hc⟩ := startsWord_of_scanWord h
  have hne : c ≠ 0x22 ∧ c ≠ 0x7b ∧ c ≠ 0x5b := by
    refine ⟨?_, ?_, ?_⟩ <;>
      · rintro rfl
        cases hc
  cases fuel with
  | zero => simp at hfuel
  | succ fuel => rw [scanOnce, if_neg hne.1, if_neg hne.2.1, if_neg hne.2.2, h]

/-- A value starts with no blank and no closing bracket. -/
theorem head_of_scanOnce {fuel : Nat} {cs : List Nat} {found : Doc × List Nat}
    (h : scanOnce fuel cs = some found) :
    ∃ c more, cs = c :: more ∧ isBlank c = false ∧ c ≠ 0x5d ∧ c ≠ 0x7d := by
  cases fuel with
  | zero => cases h
  | succ fuel =>
    cases cs with
    | nil => cases h
    | cons c cs =>
      refine ⟨c, cs, rfl, ?_⟩
      rw [scanOnce] at h
      by_cases hquote : c = 0x22
      · rw [hquote]
        decide
      by_cases hbrace : c = 0x7b
      · rw [hbrace]
        decide
      by_cases hbracket : c = 0x5b
      · rw [hbracket]
        decide
      rw [if_neg hquote, if_neg hbrace, if_neg hbracket] at h
      obtain ⟨_, _, heq, hc⟩ := startsWord_of_scanWord h
      obtain rfl := (List.cons.inj heq).1
      refine ⟨?_, ?_, ?_⟩
      · cases hblank : isBlank c with
        | false => rfl
        | true =>
          simp only [isBlank, Bool.or_eq_true, beq_iff_eq] at hblank
          rcases hblank with ((rfl | rfl) | rfl) | rfl <;> cases hc
      · rintro rfl
        cases hc
      · rintro rfl
        cases hc

/-- A value starts with an ASCII character. -/
theorem ascii_of_scanOnce {fuel c : Nat} {cs : List Nat} {found : Doc × List Nat}
    (h : scanOnce fuel (c :: cs) = some found) : c < 0x80 := by
  cases fuel with
  | zero => cases h
  | succ fuel =>
    rw [scanOnce] at h
    by_cases hquote : c = 0x22
    · omega
    by_cases hbrace : c = 0x7b
    · omega
    by_cases hbracket : c = 0x5b
    · omega
    rw [if_neg hquote, if_neg hbrace, if_neg hbracket] at h
    obtain ⟨d, _, heq, hd⟩ := startsWord_of_scanWord h
    obtain rfl := (List.cons.inj heq).1
    unfold startsWord isDigit at hd
    simp only [List.contains_cons, List.contains_nil, Bool.or_eq_true, Bool.and_eq_true,
      beq_iff_eq, decide_eq_true_eq, Bool.or_false] at hd
    omega

theorem skipBlanks_cons {c : Nat} (h : isBlank c = false) (cs : List Nat) :
    skipBlanks (c :: cs) = c :: cs :=
  List.dropWhile_cons_of_neg (by rw [h]; decide)

theorem skipBlanks_of_scanOnce {fuel : Nat} {cs : List Nat} {found : Doc × List Nat}
    (h : scanOnce fuel cs = some found) : skipBlanks cs = cs := by
  obtain ⟨c, more, rfl, hc, -⟩ := head_of_scanOnce h
  exact skipBlanks_cons hc more

@[simp] theorem skipBlanks_space (cs : List Nat) : skipBlanks (0x20 :: cs) = skipBlanks cs := rfl

/-- The character is there. -/
theorem expect_cons {c : Nat} (h : isBlank c = false) (cs : List Nat) :
    expect c (c :: cs) = some cs := by
  unfold expect
  rw [skipBlanks_cons h]
  simp

/-- Another character is there. -/
theorem expect_cons_of_ne {c d : Nat} (h : isBlank d = false) (hne : d ≠ c) (cs : List Nat) :
    expect c (d :: cs) = none := by
  unfold expect
  rw [skipBlanks_cons h]
  simp [hne]

@[simp] theorem expect_space (c : Nat) (cs : List Nat) : expect c (0x20 :: cs) = expect c cs := rfl

theorem elements_space (fuel : Nat) (cs : List Nat) :
    elements fuel (0x20 :: cs) = elements fuel cs := by
  cases fuel with
  | zero => rfl
  | succ fuel => rw [elements, elements, skipBlanks_space]

theorem members_space (fuel : Nat) (cs : List Nat) :
    members fuel (0x20 :: cs) = members fuel cs := by
  cases fuel with
  | zero => rfl
  | succ fuel => rw [members, members, expect_space]

/-! ## Behind brackets -/

theorem elements_last {fuel : Nat} {cs rest : List Nat} {d : Doc}
    (h : scanOnce fuel cs = some (d, 0x5d :: rest)) :
    elements (fuel + 1) cs = some ([d], rest) := by
  rw [elements, skipBlanks_of_scanOnce h, h]
  simp only [Option.bind_eq_bind, Option.bind_some]
  rw [expect_cons rfl]

theorem elements_more {fuel : Nat} {cs more rest : List Nat} {d : Doc} {ds : List Doc}
    (h : scanOnce fuel cs = some (d, 0x2c :: 0x20 :: more))
    (hmore : elements fuel more = some (ds, rest)) :
    elements (fuel + 1) cs = some (d :: ds, rest) := by
  rw [elements, skipBlanks_of_scanOnce h, h]
  simp only [Option.bind_eq_bind, Option.bind_some]
  rw [expect_cons_of_ne rfl (by decide), expect_cons rfl]
  simp only [Option.bind_some]
  rw [elements_space, hmore]
  rfl

/-- A member with its key, up to the value. -/
theorem members_key {fuel : Nat} {value : List Nat} {found : Doc × List Nat} (ensureAscii : Bool)
    (key : String) (h : scanOnce fuel value = some found) :
    members (fuel + 1) (codePoints (Json.quote ensureAscii key) ++ 0x3a :: 0x20 :: value) =
      match expect 0x7d found.2 with
      | some rest => some ([(codePoints key, found.1)], rest)
      | none => (expect 0x2c found.2).bind fun behindComma =>
        (members fuel behindComma).bind fun more =>
          some ((codePoints key, found.1) :: more.1, more.2) := by
  rw [members, codePoints_quote, List.cons_append, expect_cons rfl]
  simp only [Option.bind_eq_bind, Option.bind_some]
  rw [List.append_assoc, List.singleton_append, scanString_quoted]
  simp only [Option.bind_some]
  rw [expect_cons rfl]
  simp only [Option.bind_some]
  rw [skipBlanks_space, skipBlanks_of_scanOnce h, h]
  rfl

theorem members_last {fuel : Nat} {value rest : List Nat} {d : Doc} (ensureAscii : Bool)
    (key : String) (h : scanOnce fuel value = some (d, 0x7d :: rest)) :
    members (fuel + 1) (codePoints (Json.quote ensureAscii key) ++ 0x3a :: 0x20 :: value) =
      some ([(codePoints key, d)], rest) := by
  rw [members_key ensureAscii key h]
  dsimp only
  rw [expect_cons rfl]

theorem members_more {fuel : Nat} {value more rest : List Nat} {d : Doc}
    {ds : List (List Nat × Doc)} (ensureAscii : Bool) (key : String)
    (h : scanOnce fuel value = some (d, 0x2c :: 0x20 :: more))
    (hmore : members fuel more = some (ds, rest)) :
    members (fuel + 1) (codePoints (Json.quote ensureAscii key) ++ 0x3a :: 0x20 :: value) =
      some ((codePoints key, d) :: ds, rest) := by
  rw [members_key ensureAscii key h]
  dsimp only
  rw [expect_cons_of_ne rfl (by decide), expect_cons rfl]
  dsimp only
  rw [Option.bind_some, members_space, hmore]
  rfl

theorem delimited_cons {c : Nat} (h : c = 0x2c ∨ c = 0x5d ∨ c = 0x7d) (cs : List Nat) :
    Delimited (c :: cs) := by
  intro d hd
  obtain rfl : c = d := Option.some.inj hd
  exact h

theorem codePoints_join_singleton (t : String) : codePoints (Py.join ", " [t]) = codePoints t := by
  unfold codePoints Py.join
  rw [String.toList_ofList]
  simp

theorem codePoints_join_cons (t t' : String) (ts : List String) :
    codePoints (Py.join ", " (t :: t' :: ts)) =
      codePoints t ++ 0x2c :: 0x20 :: codePoints (Py.join ", " (t' :: ts)) := by
  unfold codePoints Py.join
  simp only [String.toList_ofList, List.map_cons, List.intercalate_cons_cons, List.map_append,
    List.append_assoc]
  rfl

/-- Where an element begins no bracket closes. -/
theorem expect_of_elements {fuel : Nat} {cs : List Nat} {found : List Doc × List Nat}
    (h : elements fuel cs = some found) : expect 0x5d cs = none := by
  cases fuel with
  | zero => cases h
  | succ fuel =>
    rw [elements] at h
    obtain ⟨v, hv, -⟩ := Option.bind_eq_some_iff.mp h
    obtain ⟨c, more, hskip, -, hc, -⟩ := head_of_scanOnce hv
    unfold expect
    rw [hskip]
    exact if_neg hc

/-- Where a member begins no brace closes. -/
theorem expect_of_members {fuel : Nat} {cs : List Nat} {found : List (List Nat × Doc) × List Nat}
    (h : members fuel cs = some found) : expect 0x7d cs = none := by
  cases fuel with
  | zero => cases h
  | succ fuel =>
    rw [members] at h
    obtain ⟨quoted, hquoted, -⟩ := Option.bind_eq_some_iff.mp h
    unfold expect at hquoted ⊢
    cases hskip : skipBlanks cs with
    | nil => rfl
    | cons d more =>
      rw [hskip] at hquoted
      dsimp only at hquoted ⊢
      split at hquoted
      · next hd =>
        rw [hd]
        rfl
      · cases hquoted

theorem scanOnce_elements {fuel : Nat} {cs rest : List Nat} {ds : List Doc}
    (h : elements fuel cs = some (ds, rest)) :
    scanOnce (fuel + 1) (0x5b :: cs) = some (.arr ds, rest) := by
  rw [scanOnce, if_neg (by decide), if_neg (by decide), if_pos rfl, expect_of_elements h, h]
  rfl

theorem scanOnce_members {fuel : Nat} {cs rest : List Nat} {ds : List (List Nat × Doc)}
    (h : members fuel cs = some (ds, rest)) :
    scanOnce (fuel + 1) (0x7b :: cs) = some (.obj ds, rest) := by
  rw [scanOnce, if_neg (by decide), if_pos rfl, expect_of_members h, h]
  rfl

/-! ## Values -/

theorem dumpsItems_cons {ensureAscii : Bool} {v : Json} {items : List Json} {texts : List String}
    (h : Json.dumpsItems ensureAscii (v :: items) = some texts) :
    ∃ text more, texts = text :: more ∧ Json.dumps ensureAscii v = some text ∧
      Json.dumpsItems ensureAscii items = some more := by
  rw [Json.dumpsItems] at h
  split at h
  · next text more htext hmore =>
    cases h
    exact ⟨text, more, rfl, htext, hmore⟩
  · cases h

theorem dumpsFields_cons {ensureAscii : Bool} {key : String} {v : Json}
    {fields : List (String × Json)} {texts : List String}
    (h : Json.dumpsFields ensureAscii ((key, v) :: fields) = some texts) :
    ∃ text more, texts = (Json.quote ensureAscii key ++ ": " ++ text) :: more ∧
      Json.dumps ensureAscii v = some text ∧ Json.dumpsFields ensureAscii fields = some more := by
  rw [Json.dumpsFields] at h
  split at h
  · next text more htext hmore =>
    cases h
    exact ⟨text, more, rfl, htext, hmore⟩
  · cases h

theorem codePoints_member (ensureAscii : Bool) (key text : String) :
    codePoints (Json.quote ensureAscii key ++ ": " ++ text) =
      codePoints (Json.quote ensureAscii key) ++ 0x3a :: 0x20 :: codePoints text := by
  rw [codePoints_append, codePoints_append, List.append_assoc]
  rfl

theorem codePoints_bracketed (items : String) (openBracket close : String) {o c : Nat}
    (ho : codePoints openBracket = [o]) (hc : codePoints close = [c]) (rest : List Nat) :
    codePoints (openBracket ++ items ++ close) ++ rest = o :: (codePoints items ++ c :: rest) := by
  rw [codePoints_append, codePoints_append, ho, hc]
  simp

mutual

/-- The text of a value is scanned as the value, up to what follows. -/
theorem scanOnce_dumps (ensureAscii : Bool) : ∀ (v : Json) {text : String},
    Json.dumps ensureAscii v = some text → v.Readable → ∀ {rest : List Nat}, Delimited rest →
      ∀ {fuel : Nat}, 2 * (codePoints text ++ rest).length ≤ fuel →
        scanOnce fuel (codePoints text ++ rest) = some (v.toDoc, rest)
  | .null, text, h, _, rest, _, fuel, hfuel => by
    cases h
    exact scanOnce_of_scanWord hfuel rfl
  | .bool b, text, h, _, rest, _, fuel, hfuel => by
    cases h
    cases b <;> exact scanOnce_of_scanWord hfuel rfl
  | .int i, text, h, hv, rest, hrest, fuel, hfuel => by
    cases h
    exact scanOnce_of_scanWord hfuel (scanWord_int hv hrest)
  | .float f, text, h, hv, rest, hrest, fuel, hfuel => by
    cases h
    exact scanOnce_of_scanWord hfuel (scanWord_float hv hrest)
  | .str s, text, h, _, rest, _, fuel, hfuel => by
    cases h
    rw [codePoints_quote] at hfuel ⊢
    cases fuel with
    | zero => simp at hfuel
    | succ fuel =>
      rw [List.cons_append, List.append_assoc, List.singleton_append, scanOnce, if_pos rfl,
        scanString_quoted]
      rfl
  | .arr [], text, h, _, rest, _, fuel, hfuel => by
    cases h
    cases fuel with
    | zero => simp [codePoints] at hfuel
    | succ fuel => rfl
  | .arr (v :: items), text, h, hv, rest, _, fuel, hfuel => by
    obtain ⟨texts, htexts, rfl⟩ := Option.map_eq_some_iff.mp h
    rw [codePoints_bracketed _ "[" "]" (o := 0x5b) (c := 0x5d) rfl rfl] at hfuel ⊢
    cases fuel with
    | zero => simp at hfuel
    | succ fuel =>
      simp only [List.length_cons] at hfuel
      exact scanOnce_elements (elements_dumpsItems ensureAscii v items htexts hv (by omega))
  | .obj [], text, h, _, rest, _, fuel, hfuel => by
    cases h
    cases fuel with
    | zero => simp [codePoints] at hfuel
    | succ fuel => rfl
  | .obj ((key, v) :: fields), text, h, hv, rest, _, fuel, hfuel => by
    obtain ⟨texts, htexts, rfl⟩ := Option.map_eq_some_iff.mp h
    rw [codePoints_bracketed _ "\x7b" "\x7d" (o := 0x7b) (c := 0x7d) rfl rfl] at hfuel ⊢
    cases fuel with
    | zero => simp at hfuel
    | succ fuel =>
      simp only [List.length_cons] at hfuel
      exact scanOnce_members (members_dumpsFields ensureAscii key v fields htexts hv (by omega))
  | .foreign _, text, h, _, _, _, _, _ => by cases h
  termination_by v => sizeOf v
  decreasing_by
    all_goals
      simp only [Json.arr.sizeOf_spec, Json.obj.sizeOf_spec]
      omega

theorem elements_dumpsItems (ensureAscii : Bool) : ∀ (v : Json) (items : List Json)
    {texts : List String}, Json.dumpsItems ensureAscii (v :: items) = some texts →
      Json.ReadableItems (v :: items) → ∀ {rest : List Nat} {fuel : Nat},
        2 * (codePoints (Py.join ", " texts) ++ 0x5d :: rest).length < fuel →
          elements fuel (codePoints (Py.join ", " texts) ++ 0x5d :: rest) =
            some (Json.toDocs (v :: items), rest)
  | v, [], texts, h, hv, rest, fuel, hfuel => by
    obtain ⟨text, more, rfl, htext, hmore⟩ := dumpsItems_cons h
    cases hmore
    rw [codePoints_join_singleton] at hfuel ⊢
    cases fuel with
    | zero => exact absurd hfuel (Nat.not_lt_zero _)
    | succ fuel =>
      exact elements_last (scanOnce_dumps ensureAscii v htext hv.1
        (delimited_cons (Or.inr (Or.inl rfl)) rest) (Nat.le_of_lt_succ hfuel))
  | v, w :: items, texts, h, hv, rest, fuel, hfuel => by
    obtain ⟨text, more, rfl, htext, hmore⟩ := dumpsItems_cons h
    obtain ⟨text', more', rfl, -, -⟩ := dumpsItems_cons hmore
    rw [codePoints_join_cons, List.append_assoc, List.cons_append, List.cons_append] at hfuel ⊢
    cases fuel with
    | zero => exact absurd hfuel (Nat.not_lt_zero _)
    | succ fuel =>
      refine elements_more (scanOnce_dumps ensureAscii v htext hv.1
        (delimited_cons (Or.inl rfl) _) (Nat.le_of_lt_succ hfuel))
        (elements_dumpsItems ensureAscii w items hmore hv.2 ?_)
      simp only [List.length_append, List.length_cons] at hfuel ⊢
      omega
  termination_by v items => sizeOf (v :: items)
  decreasing_by
    all_goals
      simp only [List.cons.sizeOf_spec]
      omega

theorem members_dumpsFields (ensureAscii : Bool) : ∀ (key : String) (v : Json)
    (fields : List (String × Json)) {texts : List String},
      Json.dumpsFields ensureAscii ((key, v) :: fields) = some texts →
        Json.ReadableFields ((key, v) :: fields) → ∀ {rest : List Nat} {fuel : Nat},
          2 * (codePoints (Py.join ", " texts) ++ 0x7d :: rest).length < fuel →
            members fuel (codePoints (Py.join ", " texts) ++ 0x7d :: rest) =
              some (Json.toMembers ((key, v) :: fields), rest)
  | key, v, [], texts, h, hv, rest, fuel, hfuel => by
    obtain ⟨text, more, rfl, htext, hmore⟩ := dumpsFields_cons h
    cases hmore
    rw [codePoints_join_singleton, codePoints_member, List.append_assoc, List.cons_append,
      List.cons_append] at hfuel ⊢
    cases fuel with
    | zero => exact absurd hfuel (Nat.not_lt_zero _)
    | succ fuel =>
      have hlength : 2 * (codePoints text ++ 0x7d :: rest).length ≤ fuel := by
        simp only [List.length_append, List.length_cons] at hfuel ⊢
        omega
      exact members_last ensureAscii key (scanOnce_dumps ensureAscii v htext hv.1
        (delimited_cons (Or.inr (Or.inr rfl)) rest) hlength)
  | key, v, (key', w) :: fields, texts, h, hv, rest, fuel, hfuel => by
    obtain ⟨text, more, rfl, htext, hmore⟩ := dumpsFields_cons h
    obtain ⟨text', more', rfl, -, -⟩ := dumpsFields_cons hmore
    rw [codePoints_join_cons, codePoints_member, List.append_assoc, List.append_assoc,
      List.cons_append, List.cons_append, List.cons_append, List.cons_append] at hfuel ⊢
    cases fuel with
    | zero => exact absurd hfuel (Nat.not_lt_zero _)
    | succ fuel =>
      refine members_more ensureAscii key (scanOnce_dumps ensureAscii v htext hv.1
        (delimited_cons (Or.inl rfl) _) ?_)
        (members_dumpsFields ensureAscii key' w fields hmore hv.2 ?_)
      · simp only [List.length_append, List.length_cons] at hfuel ⊢
        omega
      · simp only [List.length_append, List.length_cons] at hfuel ⊢
        omega
  termination_by key v fields => sizeOf ((key, v) :: fields)
  decreasing_by
    all_goals
      simp only [List.cons.sizeOf_spec, Prod.mk.sizeOf_spec]
      omega

end

end JsonText

/-- The text of a value reads back as the value. -/
theorem JsonText.decode_dumps {ensureAscii : Bool} {v : Json} {text : String}
    (h : v.dumps ensureAscii = some text) (hv : v.Readable) :
    JsonText.decode (codePoints text) = some v.toDoc := by
  have hend : JsonText.Delimited [] := fun c hc => nomatch hc
  have hscan := scanOnce_dumps ensureAscii v h hv hend (Nat.le_refl _)
  rw [List.append_nil] at hscan
  unfold JsonText.decode
  rw [skipBlanks_of_scanOnce hscan, hscan]
  rfl

/-! ## Bytes -/

namespace JsonText

theorem digit_ne_zero {cs : List Nat} (h : ∀ c ∈ cs, isDigit c = true) : 0 ∉ cs :=
  fun hmem => absurd (h 0 hmem) (by decide)

theorem IsWhole.zero_notMem {whole : List Nat} (h : IsWhole whole) : 0 ∉ whole := by
  rcases h with rfl | ⟨d, ds, rfl, -, hds⟩
  · decide
  · exact digit_ne_zero hds

/-- The text of a float holds no NUL. -/
theorem IsFloatText.zero_notMem {cs : List Nat} (h : IsFloatText cs) : 0 ∉ cs := by
  obtain ⟨sign, whole, fraction, exponent, rfl, hsign, hwhole, hfraction, hexponent, -⟩ := h
  have hsign0 : 0 ∉ sign := by
    rcases hsign with rfl | rfl <;> decide
  have hfraction0 : 0 ∉ fraction := by
    rcases hfraction with rfl | ⟨d, ds, rfl, hds⟩
    · decide
    · exact List.not_mem_cons_of_ne_of_not_mem (by decide) (digit_ne_zero hds)
  have hexponent0 : 0 ∉ exponent := by
    rcases hexponent with rfl | ⟨e, sign', d, ds, rfl, he, hsign', hds⟩
    · decide
    · have he0 : 0 ≠ e := by
        rcases he with rfl | rfl <;> decide
      have hsign0' : 0 ∉ sign' := by
        rcases hsign' with rfl | rfl | rfl <;> decide
      refine List.not_mem_cons_of_ne_of_not_mem he0 fun hmem => ?_
      exact (List.mem_append.mp hmem).elim hsign0' (digit_ne_zero hds)
  simp only [List.mem_append, not_or]
  exact ⟨hsign0, hwhole.zero_notMem, hfraction0, hexponent0⟩

theorem hex4_ne_nul (n : Nat) : ∀ c ∈ Json.hex4 n, c.toNat ≠ 0 := by
  have hdigit : ∀ d, d < 16 → (Nat.digitChar d).toNat ≠ 0 := by decide
  intro c hc
  obtain ⟨m, -, rfl⟩ := List.mem_map.mp hc
  exact hdigit _ (Nat.mod_lt _ (by decide))

theorem escapeUnit_ne_nul (n : Nat) : ∀ c ∈ Json.escapeUnit n, c.toNat ≠ 0 := by
  intro c hc
  rcases List.mem_cons.mp hc with rfl | hc
  · decide
  rcases List.mem_cons.mp hc with rfl | hc
  · decide
  · exact hex4_ne_nul n c hc

/-- NUL is escaped. -/
theorem escapeChar_ne_nul (ensureAscii : Bool) (c : Char) :
    ∀ d ∈ Json.escapeChar ensureAscii c, d.toNat ≠ 0 := by
  intro d hd
  unfold Json.escapeChar at hd
  have hpair : ∀ {a b : Char}, a.toNat ≠ 0 → b.toNat ≠ 0 → d ∈ [a, b] → d.toNat ≠ 0 := by
    intro a b ha hb hd
    rcases List.mem_cons.mp hd with rfl | hd
    · exact ha
    · exact List.mem_singleton.mp hd ▸ hb
  split at hd
  · exact hpair (by decide) (by decide) hd
  split at hd
  · exact hpair (by decide) (by decide) hd
  split at hd
  case h_1 | h_2 | h_3 | h_4 | h_5 => exact hpair (by decide) (by decide) hd
  case h_6 =>
    split at hd
    · exact escapeUnit_ne_nul _ d hd
    split at hd
    · next hlow _ =>
      obtain rfl := List.mem_singleton.mp hd
      omega
    split at hd
    · exact escapeUnit_ne_nul _ d hd
    · exact (List.mem_append.mp hd).elim (escapeUnit_ne_nul _ d) (escapeUnit_ne_nul _ d)

theorem quote_zero_notMem (ensureAscii : Bool) (s : String) :
    0 ∉ codePoints (Json.quote ensureAscii s) := by
  rw [codePoints_quote]
  intro hmem
  rcases List.mem_cons.mp hmem with hzero | hmem
  · cases hzero
  rcases List.mem_append.mp hmem with hmem | hmem
  · obtain ⟨d, hd, hzero⟩ := List.mem_map.mp hmem
    obtain ⟨c, -, hd⟩ := List.mem_flatMap.mp hd
    exact escapeChar_ne_nul ensureAscii c d hd hzero
  · cases List.mem_singleton.mp hmem

theorem join_zero_notMem {ts : List String} (h : ∀ t ∈ ts, 0 ∉ codePoints t) :
    0 ∉ codePoints (Py.join ", " ts) := by
  induction ts with
  | nil => decide
  | cons t ts ih =>
    obtain ⟨ht, hts⟩ := List.forall_mem_cons.mp h
    cases ts with
    | nil =>
      rw [codePoints_join_singleton]
      exact ht
    | cons t' ts =>
      rw [codePoints_join_cons]
      simp only [List.mem_append, List.mem_cons, not_or]
      exact ⟨ht, by decide, by decide, ih hts⟩

theorem bracketed_zero_notMem {items openBracket close : String}
    (h : 0 ∉ codePoints items) (ho : 0 ∉ codePoints openBracket) (hc : 0 ∉ codePoints close) :
    0 ∉ codePoints (openBracket ++ items ++ close) := by
  rw [codePoints_append, codePoints_append]
  simp only [List.mem_append, not_or]
  exact ⟨⟨ho, h⟩, hc⟩

mutual

/-- The text of a value holds no NUL. -/
theorem dumps_zero_notMem (ensureAscii : Bool) : ∀ (v : Json) {text : String},
    Json.dumps ensureAscii v = some text → v.Readable → 0 ∉ codePoints text
  | .null, text, h, _ => by
    cases h
    decide
  | .bool b, text, h, _ => by
    cases h
    cases b <;> decide
  | .int i, text, h, _ => by
    cases h
    rw [codePoints_toString]
    intro hmem
    rcases List.mem_append.mp hmem with hmem | hmem
    · split at hmem
      · cases List.mem_singleton.mp hmem
      · cases hmem
    · exact (isWhole_toDigits _).zero_notMem hmem
  | .float f, text, h, hv => by
    cases h
    cases f with
    | nan => decide
    | inf negative => cases negative <;> decide
    | fin value repr => exact IsFloatText.zero_notMem hv
  | .str s, text, h, _ => by
    cases h
    exact quote_zero_notMem ensureAscii s
  | .arr items, text, h, hv => by
    obtain ⟨texts, htexts, rfl⟩ := Option.map_eq_some_iff.mp h
    exact bracketed_zero_notMem
      (join_zero_notMem (dumpsItems_zero_notMem ensureAscii items htexts hv))
      (by decide) (by decide)
  | .obj fields, text, h, hv => by
    obtain ⟨texts, htexts, rfl⟩ := Option.map_eq_some_iff.mp h
    exact bracketed_zero_notMem
      (join_zero_notMem (dumpsFields_zero_notMem ensureAscii fields htexts hv))
      (by decide) (by decide)
  | .foreign _, text, h, _ => by cases h

theorem dumpsItems_zero_notMem (ensureAscii : Bool) : ∀ (items : List Json)
    {texts : List String}, Json.dumpsItems ensureAscii items = some texts →
      Json.ReadableItems items → ∀ t ∈ texts, 0 ∉ codePoints t
  | [], texts, h, _ => by
    cases h
    exact List.forall_mem_nil _
  | v :: items, texts, h, hv => by
    obtain ⟨text, more, rfl, htext, hmore⟩ := dumpsItems_cons h
    exact List.forall_mem_cons.mpr ⟨dumps_zero_notMem ensureAscii v htext hv.1,
      dumpsItems_zero_notMem ensureAscii items hmore hv.2⟩

theorem dumpsFields_zero_notMem (ensureAscii : Bool) : ∀ (fields : List (String × Json))
    {texts : List String}, Json.dumpsFields ensureAscii fields = some texts →
      Json.ReadableFields fields → ∀ t ∈ texts, 0 ∉ codePoints t
  | [], texts, h, _ => by
    cases h
    exact List.forall_mem_nil _
  | (key, v) :: fields, texts, h, hv => by
    obtain ⟨text, more, rfl, htext, hmore⟩ := dumpsFields_cons h
    refine List.forall_mem_cons.mpr ⟨?_, dumpsFields_zero_notMem ensureAscii fields hmore hv.2⟩
    rw [codePoints_member]
    simp only [List.mem_append, List.mem_cons, not_or]
    exact ⟨quote_zero_notMem ensureAscii key, by decide, by decide,
      dumps_zero_notMem ensureAscii v htext hv.1⟩

end

/-- A text that reads as a value starts with an ASCII character. -/
theorem head_of_decode {cs : List Nat} {d : Doc} (h : decode cs = some d) :
    ∃ c more, cs = c :: more ∧ c < 0x80 := by
  obtain ⟨found, hfound, -⟩ := Option.bind_eq_some_iff.mp h
  cases cs with
  | nil => cases hfound
  | cons c cs =>
    refine ⟨c, cs, rfl, ?_⟩
    by_cases hblank : isBlank c = true
    · simp only [isBlank, Bool.or_eq_true, beq_iff_eq] at hblank
      omega
    · rw [skipBlanks_cons (Bool.eq_false_iff.mpr hblank)] at hfound
      exact ascii_of_scanOnce hfound

end JsonText

/-- The bytes of a text without NUL that starts with an ASCII character are read as UTF-8. -/
theorem decodeDetected_of_no_nul {s : String} {c : Nat} {cs : List Nat}
    (hs : codePoints s = c :: cs) (hascii : c < 0x80) (hnul : 0 ∉ codePoints s) :
    decodeDetected (encodeUtf8 s) = some (codePoints s) := by
  obtain ⟨c0, rest, hlist, rfl, hrest⟩ := List.map_eq_cons_iff.mp hs
  have hne : ∀ d ∈ s.toList, d.toNat ≠ 0 := fun d hd hzero =>
    hnul (hzero ▸ List.mem_map_of_mem hd)
  rw [hlist] at hne
  cases rest with
  | cons c1 rest =>
    exact decodeDetected_encodeUtf8 hlist hascii (hne c0 (by simp)) (hne c1 (by simp))
  | nil =>
    obtain ⟨b, bs, hb, -, hfirst⟩ := utf8EncodeChar_head c0
    obtain ⟨hb0, rfl⟩ := hfirst hascii
    have hdetect : detectEncoding (encodeUtf8 s) = .utf8 := by
      rw [encodeUtf8, hlist, List.flatMap_cons, List.flatMap_nil, hb]
      unfold detectEncoding
      simp [List.isPrefixOf]
    unfold decodeDetected
    rw [hdetect]
    exact decodeUtf8Pass_encodeUtf8 s

/-- The bytes of a value load as the value. -/
theorem Doc.loads_dumps {ensureAscii : Bool} {v : Json} {text : String}
    (h : v.dumps ensureAscii = some text) (hv : v.Readable) :
    Doc.loads (encodeUtf8 text) = some v.toDoc := by
  have hdecode := JsonText.decode_dumps h hv
  obtain ⟨c, more, hcs, hascii⟩ := JsonText.head_of_decode hdecode
  unfold Doc.loads
  rw [decodeDetected_of_no_nul hcs hascii (JsonText.dumps_zero_notMem ensureAscii v h hv)]
  exact hdecode

/-! ## Members -/

/-- The value of a key: a later one takes the place of an earlier. -/
def Doc.lastOf (key : List Nat) : List (List Nat × Doc) → Option Doc
  | [] => none
  | (k, v) :: fields => (lastOf key fields).or (if k = key then some v else none)

/-- `payload.get(key)` of a dictionary. -/
def Doc.get (key : String) : Doc → Option Doc
  | obj fields => lastOf (codePoints key) fields
  | _ => none

theorem codePoints_inj {s t : String} : codePoints s = codePoints t ↔ s = t := by
  unfold codePoints
  rw [(List.map_injective_iff.mpr fun _ _ => Char.toNat_inj.mp).eq_iff, String.toList_inj]

/-- Of a dictionary the member of a key is read back. -/
theorem Json.get_toDoc {fields : List (String × Json)} (hkeys : (fields.map Prod.fst).Nodup)
    (key : String) : (Json.obj fields).toDoc.get key = (fields.lookup key).map Json.toDoc := by
  show Doc.lastOf (codePoints key) (Json.toMembers fields) = _
  induction fields with
  | nil => rfl
  | cons field fields ih =>
    obtain ⟨k, v⟩ := field
    obtain ⟨hk, hkeys⟩ := List.nodup_cons.mp hkeys
    rw [Json.toMembers, Doc.lastOf, ih hkeys]
    by_cases heq : k = key
    · subst heq
      have hnone : fields.lookup k = none := by
        rw [List.lookup_eq_none_iff]
        intro field hfield
        have hmem : field.1 ∈ fields.map Prod.fst := List.mem_map_of_mem hfield
        have hne : k ≠ field.1 := fun he => hk (he ▸ hmem)
        simpa using hne
      rw [hnone, List.lookup_cons_self, if_pos rfl]
      rfl
    · have hb : (key == k) = false := beq_false_of_ne (Ne.symm heq)
      rw [if_neg fun h => heq (codePoints_inj.mp h), List.lookup_cons, hb, Option.or_none]

theorem Json.length_toDocs (items : List Json) : (Json.toDocs items).length = items.length := by
  induction items with
  | nil => rfl
  | cons v items ih => rw [Json.toDocs, List.length_cons, List.length_cons, ih]

/-- The bytes of a text are as many as its size. -/
theorem length_encodeUtf8 (s : String) : (encodeUtf8 s).length = s.utf8ByteSize := by
  rw [← String.size_toByteArray, ← String.utf8Encode_toList, List.utf8Encode,
    List.size_toByteArray]
  rfl

end Py
