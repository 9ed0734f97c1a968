import SsiRestApi.Lib.Unicode

/-!
# Reading JSON

`json.loads` with the default scanner, strict about control characters.  A float keeps its
text, a string its code points; the interpreter's limit on nesting is not modelled.

    fuel for every character is enough                            (scan_fuel)
    what reads as an object starts with blanks and a brace        (head_of_decode_obj)
-/

namespace Py

/-- A document, as `json.loads` returns it. -/
inductive Doc where
  | null
  | bool (b : Bool)
  | int (i : Int)
  | float (literal : List Nat)
  | str (s : List Nat)
  | arr (items : List Doc)
  | obj (fields : List (List Nat × Doc))

namespace JsonText

/-! ## Blanks, strings, numbers -/

def isBlank (c : Nat) : Bool := c == 0x20 || c == 0x09 || c == 0x0a || c == 0x0d

def skipBlanks (cs : List Nat) : List Nat := cs.dropWhile isBlank

def isDigit (c : Nat) : Bool := 0x30 ≤ c && c ≤ 0x39

def hexDigit (c : Nat) : Option Nat :=
  if 0x30 ≤ c ∧ c ≤ 0x39 then some (c - 0x30)
  else if 0x41 ≤ c ∧ c ≤ 0x46 then some (c - 0x37)
  else if 0x61 ≤ c ∧ c ≤ 0x66 then some (c - 0x57)
  else none

/-- A unit of four hexadecimal digits. -/
def hexUnit (a b c d : Nat) : Option Nat := do
  let a ← hexDigit a
  let b ← hexDigit b
  let c ← hexDigit c
  let d ← hexDigit d
  pure (((a * 16 + b) * 16 + c) * 16 + d)

/-- What follows a backslash, except for `u`. -/
def escaped (c : Nat) : Option Nat :=
  if c = 0x22 ∨ c = 0x5c ∨ c = 0x2f then some c
  else if c = 0x62 then some 0x08
  else if c = 0x66 then some 0x0c
  else if c = 0x6e then some 0x0a
  else if c = 0x72 then some 0x0d
  else if c = 0x74 then some 0x09
  else none

/-- The characters up to the closing quote: what each stands for, and whether as a `\u` unit. -/
def scanChars : List Nat → Option (List (Bool × Nat) × List Nat)
  | 0x22 :: rest => some ([], rest)
  | 0x5c :: 0x75 :: a :: b :: c :: d :: rest => do
    let u ← hexUnit a b c d
    let found ← scanChars rest
    pure ((true, u) :: found.1, found.2)
  | 0x5c :: c :: rest => do
    let e ← escaped c
    let found ← scanChars rest
    pure ((false, e) :: found.1, found.2)
  | c :: rest =>
    if c = 0x5c ∨ c < 0x20 then none
    else do
      let found ← scanChars rest
      pure ((false, c) :: found.1, found.2)
  | [] => none

/-- `scanstring`, behind the opening quote. -/
def scanString (cs : List Nat) : Option (List Nat × List Nat) :=
  (scanChars cs).map fun found => (joinSurrogates found.1, found.2)

/-- Past the digits of an integer: a zero alone, or digits without a leading one. -/
def skipInteger : List Nat → Option (List Nat)
  | c :: rest =>
    if c = 0x30 then some rest
    else if isDigit c then some (rest.dropWhile isDigit)
    else none
  | [] => none

/-- Past `.` and digits, if they are there. -/
def skipFraction : List Nat → List Nat
  | 0x2e :: c :: rest => if isDigit c then rest.dropWhile isDigit else 0x2e :: c :: rest
  | cs => cs

def skipSign : List Nat → List Nat
  | c :: rest => if c = 0x2b ∨ c = 0x2d then rest else c :: rest
  | [] => []

/-- Past an exponent, if it is there. -/
def skipExponent : List Nat → List Nat
  | c :: rest =>
    if (c = 0x65 ∨ c = 0x45) ∧ (skipSign rest).head?.any isDigit = true then
      (skipSign rest).dropWhile isDigit
    else c :: rest
  | [] => []

/-- The value of the digits, unless there are more than the interpreter converts. -/
def integerValue (digits : List Nat) : Option Nat :=
  if digits.length ≤ 4300 then some (digits.foldl (fun n c => 10 * n + (c - 0x30)) 0) else none

/-- `_match_number`: a float has a fraction or an exponent. -/
def matchNumber (cs : List Nat) : Option (Doc × List Nat) := do
  let negative := cs.head? == some 0x2d
  let body := if negative then cs.tail else cs
  let behind ← skipInteger body
  let rest := skipExponent (skipFraction behind)
  if rest.length < behind.length then
    pure (.float (cs.take (cs.length - rest.length)), rest)
  else
    let n ← integerValue (body.take (body.length - behind.length))
    pure (.int (if negative then -(n : Int) else n), rest)

/-- The names the scanner knows. -/
def constants : List (List Nat × Doc) :=
  [(codePoints "null", .null), (codePoints "true", .bool true), (codePoints "false", .bool false),
   (codePoints "NaN", .float (codePoints "NaN")),
   (codePoints "Infinity", .float (codePoints "Infinity")),
   (codePoints "-Infinity", .float (codePoints "-Infinity"))]

/-- A constant, else a number. -/
def scanWord (cs : List Nat) : Option (Doc × List Nat) :=
  match constants.find? fun k => k.1.isPrefixOf cs with
  | some (name, v) => some (v, cs.drop name.length)
  | none => matchNumber cs

/-! ## Values -/

/-- Past blanks and a character. -/
def expect (c : Nat) (cs : List Nat) : Option (List Nat) :=
  match skipBlanks cs with
  | d :: rest => if d = c then some rest else none
  | [] => none

mutual

/-- `scan_once`. -/
def scanOnce : Nat → List Nat → Option (Doc × List Nat)
  | 0, _ => none
  | _ + 1, [] => none
  | fuel + 1, c :: cs =>
    if c = 0x22 then (scanString cs).map fun found => (.str found.1, found.2)
    else if c = 0x7b then
      match expect 0x7d cs with
      | some rest => some (.obj [], rest)
      | none => (members fuel cs).map fun found => (.obj found.1, found.2)
    else if c = 0x5b then
      match expect 0x5d cs with
      | some rest => some (.arr [], rest)
      | none => (elements fuel cs).map fun found => (.arr found.1, found.2)
    else scanWord (c :: cs)

/-- The members of an object, behind its brace or a comma. -/
def members : Nat → List Nat → Option (List (List Nat × Doc) × List Nat)
  | 0, _ => none
  | fuel + 1, cs => do
    let quoted ← expect 0x22 cs
    let key ← scanString quoted
    let behindColon ← expect 0x3a key.2
    let v ← scanOnce fuel (skipBlanks behindColon)
    match expect 0x7d v.2 with
    | some rest => some ([(key.1, v.1)], rest)
    | none => do
      let behindComma ← expect 0x2c v.2
      let found ← members fuel behindComma
      some ((key.1, v.1) :: found.1, found.2)

/-- The elements of an array, behind its bracket or a comma. -/
def elements : Nat → List Nat → Option (List Doc × List Nat)
  | 0, _ => none
  | fuel + 1, cs => do
    let v ← scanOnce fuel (skipBlanks cs)
    match expect 0x5d v.2 with
    | some rest => some ([v.1], rest)
    | none => do
      let behindComma ← expect 0x2c v.2
      let found ← elements fuel behindComma
      some (v.1 :: found.1, found.2)

end

/-- `json.loads(s)` of a text; `none` is a `ValueError`. -/
def decode (cs : List Nat) : Option Doc := do
  let found ← scanOnce (2 * cs.length) (skipBlanks cs)
  if skipBlanks found.2 = [] then some found.1 else none

end JsonText

/-- `json.loads(b)` of bytes. -/
def Doc.loads (b : List UInt8) : Option Doc := decodeDetected b >>= JsonText.decode

/-- `isinstance(v, dict) and key in v`. -/
def Doc.hasMember (key : String) : Doc → Bool
  | obj fields => fields.any fun field => field.1 == codePoints key
  | _ => false

namespace JsonText

/-! ## The fuel is enough -/

theorem length_skipBlanks (cs : List Nat) : (skipBlanks cs).length ≤ cs.length :=
  (List.dropWhile_sublist _).length_le

theorem length_of_expect {c : Nat} {cs rest : List Nat} (h : expect c cs = some rest) :
    rest.length < cs.length := by
  have hle := length_skipBlanks cs
  unfold expect at h
  split at h
  · next d rest' hskip =>
    split at h
    · cases h
      rw [hskip] at hle
      exact hle
    · cases h
  · cases h

theorem length_of_scanChars {cs : List Nat} {found : List (Bool × Nat) × List Nat}
    (h : scanChars cs = some found) : found.2.length ≤ cs.length := by
  fun_induction scanChars cs generalizing found with
  | case1 rest =>
    cases h
    exact Nat.le_succ _
  | case2 a b c d rest ih =>
    obtain ⟨u, -, h⟩ := Option.bind_eq_some_iff.mp h
    obtain ⟨found', hfound, h⟩ := Option.bind_eq_some_iff.mp h
    cases h
    have := ih hfound
    simp only [List.length_cons]
    omega
  | case3 c rest _ ih =>
    obtain ⟨e, -, h⟩ := Option.bind_eq_some_iff.mp h
    obtain ⟨found', hfound, h⟩ := Option.bind_eq_some_iff.mp h
    cases h
    have := ih hfound
    simp only [List.length_cons]
    omega
  | case4 => cases h
  | case5 c rest _ _ _ _ ih =>
    obtain ⟨found', hfound, h⟩ := Option.bind_eq_some_iff.mp h
    cases h
    have := ih hfound
    exact Nat.le_succ_of_le this
  | case6 => cases h

theorem length_of_scanString {cs : List Nat} {found : List Nat × List Nat}
    (h : scanString cs = some found) : found.2.length ≤ cs.length := by
  obtain ⟨items, hitems, rfl⟩ := Option.map_eq_some_iff.mp h
  exact length_of_scanChars hitems

theorem length_skipFraction (cs : List Nat) : (skipFraction cs).length ≤ cs.length := by
  unfold skipFraction
  split
  · next c rest =>
    split
    · have := (List.dropWhile_sublist (l := rest) isDigit).length_le
      simp only [List.length_cons]
      omega
    · exact Nat.le_refl _
  · exact Nat.le_refl _

theorem length_skipSign (cs : List Nat) : (skipSign cs).length ≤ cs.length := by
  unfold skipSign
  split
  · split
    · exact Nat.le_succ _
    · exact Nat.le_refl _
  · exact Nat.le_refl _

theorem length_skipExponent (cs : List Nat) : (skipExponent cs).length ≤ cs.length := by
  unfold skipExponent
  split
  · next c rest =>
    split
    · have hdigits := (List.dropWhile_sublist (l := skipSign rest) isDigit).length_le
      have hsign := length_skipSign rest
      simp only [List.length_cons]
      omega
    · exact Nat.le_refl _
  · exact Nat.le_refl _

theorem length_of_skipInteger {cs rest : List Nat} (h : skipInteger cs = some rest) :
    rest.length ≤ cs.length := by
  unfold skipInteger at h
  split at h
  · next c cs =>
    split at h
    · cases h
      exact Nat.le_succ _
    · split at h
      · cases h
        exact Nat.le_succ_of_le ((List.dropWhile_sublist _).length_le)
      · cases h
  · cases h

theorem length_of_matchNumber {cs : List Nat} {found : Doc × List Nat}
    (h : matchNumber cs = some found) : found.2.length ≤ cs.length := by
  obtain ⟨behind, hbehind, h⟩ := Option.bind_eq_some_iff.mp h
  have hinteger := length_of_skipInteger hbehind
  have hrest := Nat.le_trans (length_skipExponent (skipFraction behind)) (length_skipFraction behind)
  have hbody : (if (cs.head? == some 0x2d) = true then cs.tail else cs).length ≤ cs.length := by
    split
    · rw [List.length_tail]
      exact Nat.sub_le _ _
    · exact Nat.le_refl _
  have hle : (skipExponent (skipFraction behind)).length ≤ cs.length :=
    Nat.le_trans hrest (Nat.le_trans hinteger hbody)
  dsimp only at h
  split at h
  · cases h
    exact hle
  · obtain ⟨n, -, h⟩ := Option.bind_eq_some_iff.mp h
    cases h
    exact hle

theorem length_of_scanWord {cs : List Nat} {found : Doc × List Nat}
    (h : scanWord cs = some found) : found.2.length ≤ cs.length := by
  unfold scanWord at h
  split at h
  · cases h
    rw [List.length_drop]
    exact Nat.sub_le _ _
  · exact length_of_matchNumber h

/-- A value, and the members and elements behind a bracket, end where the text goes on. -/
theorem length_of_scan (fuel : Nat) :
    (∀ cs found, scanOnce fuel cs = some found → found.2.length ≤ cs.length) ∧
    (∀ cs found, members fuel cs = some found → found.2.length ≤ cs.length) ∧
    (∀ cs found, elements fuel cs = some found → found.2.length ≤ cs.length) := by
  induction fuel with
  | zero =>
    refine ⟨?_, ?_, ?_⟩
    all_goals
      intro cs found h
      cases h
  | succ fuel ih =>
    obtain ⟨hvalue, hmembers, helements⟩ := ih
    refine ⟨fun cs found h => ?_, fun cs found h => ?_, fun cs found h => ?_⟩
    · cases cs with
      | nil => cases h
      | cons c cs =>
        rw [scanOnce] at h
        split at h
        · obtain ⟨found', hfound, rfl⟩ := Option.map_eq_some_iff.mp h
          exact Nat.le_succ_of_le (length_of_scanString hfound)
        split at h
        · split at h
          · next rest hrest =>
            cases h
            exact Nat.le_succ_of_le (Nat.le_of_lt (length_of_expect hrest))
          · obtain ⟨found', hfound, rfl⟩ := Option.map_eq_some_iff.mp h
            exact Nat.le_succ_of_le (hmembers _ _ hfound)
        split at h
        · split at h
          · next rest hrest =>
            cases h
            exact Nat.le_succ_of_le (Nat.le_of_lt (length_of_expect hrest))
          · obtain ⟨found', hfound, rfl⟩ := Option.map_eq_some_iff.mp h
            exact Nat.le_succ_of_le (helements _ _ hfound)
        · exact length_of_scanWord h
    · rw [members] at h
      obtain ⟨quoted, hquoted, h⟩ := Option.bind_eq_some_iff.mp h
      obtain ⟨key, hkey, h⟩ := Option.bind_eq_some_iff.mp h
      obtain ⟨behindColon, hcolon, h⟩ := Option.bind_eq_some_iff.mp h
      obtain ⟨v, hv, h⟩ := Option.bind_eq_some_iff.mp h
      have h1 := length_of_expect hquoted
      have h2 := length_of_scanString hkey
      have h3 := length_of_expect hcolon
      have h4 := Nat.le_trans (hvalue _ _ hv) (length_skipBlanks _)
      split at h
      · next rest hrest =>
        cases h
        have h5 := length_of_expect hrest
        show rest.length ≤ cs.length
        omega
      · obtain ⟨behindComma, hcomma, h⟩ := Option.bind_eq_some_iff.mp h
        obtain ⟨found', hfound, h⟩ := Option.bind_eq_some_iff.mp h
        cases h
        have h5 := length_of_expect hcomma
        have h6 := hmembers _ _ hfound
        show found'.2.length ≤ cs.length
        omega
    · rw [elements] at h
      obtain ⟨v, hv, h⟩ := Option.bind_eq_some_iff.mp h
      have h1 := Nat.le_trans (hvalue _ _ hv) (length_skipBlanks _)
      split at h
      · next rest hrest =>
        cases h
        have h2 := length_of_expect hrest
        show rest.length ≤ cs.length
        omega
      · obtain ⟨behindComma, hcomma, h⟩ := Option.bind_eq_some_iff.mp h
        obtain ⟨found', hfound, h⟩ := Option.bind_eq_some_iff.mp h
        cases h
        have h2 := length_of_expect hcomma
        have h3 := helements _ _ hfound
        show found'.2.length ≤ cs.length
        omega

/-- More fuel than two for a character changes nothing. -/
theorem scan_fuel (fuel : Nat) : ∀ fuel',
    (∀ cs, 2 * cs.length ≤ fuel → 2 * cs.length ≤ fuel' →
      scanOnce fuel cs = scanOnce fuel' cs) ∧
    (∀ cs, 2 * cs.length < fuel → 2 * cs.length < fuel' →
      members fuel cs = members fuel' cs) ∧
    (∀ cs, 2 * cs.length < fuel → 2 * cs.length < fuel' →
      elements fuel cs = elements fuel' cs) := by
  induction fuel with
  | zero =>
    refine fun fuel' => ⟨fun cs h _ => ?_, fun _ h => absurd h (by omega),
      fun _ h => absurd h (by omega)⟩
    obtain rfl := List.eq_nil_of_length_eq_zero (by omega : cs.length = 0)
    cases fuel' <;> rfl
  | succ fuel ih =>
    intro fuel'
    cases fuel' with
    | zero =>
      refine ⟨fun cs _ h => ?_, fun _ _ h => absurd h (by omega),
        fun _ _ h => absurd h (by omega)⟩
      obtain rfl := List.eq_nil_of_length_eq_zero (by omega : cs.length = 0)
      rfl
    | succ fuel' =>
      obtain ⟨hvalue, hmembers, helements⟩ := ih fuel'
      refine ⟨fun cs h h' => ?_, fun cs h h' => ?_, fun cs h h' => ?_⟩
      · cases cs with
        | nil => rfl
        | cons c cs =>
          simp only [List.length_cons] at h h'
          rw [scanOnce, scanOnce, hmembers cs (by omega) (by omega),
            helements cs (by omega) (by omega)]
      · rw [members, members]
        refine Option.bind_congr fun quoted hquoted => ?_
        refine Option.bind_congr fun key hkey => ?_
        refine Option.bind_congr fun behindColon hcolon => ?_
        have h1 := length_of_expect hquoted
        have h2 := length_of_scanString hkey
        have h3 := length_of_expect hcolon
        have h4 := length_skipBlanks behindColon
        rw [hvalue _ (by omega) (by omega)]
        refine Option.bind_congr fun v hv => ?_
        cases expect 0x7d v.2 with
        | some rest => rfl
        | none =>
          refine Option.bind_congr fun behindComma hcomma => ?_
          have h5 := (length_of_scan fuel').1 _ _ hv
          have h6 := length_of_expect hcomma
          rw [hmembers _ (by omega) (by omega)]
      · rw [elements, elements]
        have h1 := length_skipBlanks cs
        rw [hvalue _ (by omega) (by omega)]
        refine Option.bind_congr fun v hv => ?_
        cases expect 0x5d v.2 with
        | some rest => rfl
        | none =>
          refine Option.bind_congr fun behindComma hcomma => ?_
          have h2 := (length_of_scan fuel').1 _ _ hv
          have h3 := length_of_expect hcomma
          rw [helements _ (by omega) (by omega)]

/-- Any amount of fuel from two for a character on reads the same. -/
theorem decode_fuel (cs : List Nat) {fuel : Nat} (h : 2 * cs.length ≤ fuel) :
    decode cs = (scanOnce fuel (skipBlanks cs)).bind fun found =>
      if skipBlanks found.2 = [] then some found.1 else none := by
  have hblanks := length_skipBlanks cs
  unfold decode
  rw [(scan_fuel (2 * cs.length) fuel).1 (skipBlanks cs) (by omega) (by omega)]
  rfl

/-! ## Objects -/

/-- What a text may start with: blanks, then a character. -/
theorem head_of_expect {c : Nat} {cs rest : List Nat} (h : expect c cs = some rest) :
    ∃ d ds, cs = d :: ds ∧ (isBlank d = true ∨ d = c) := by
  unfold expect skipBlanks at h
  cases cs with
  | nil => cases h
  | cons d ds =>
    refine ⟨d, ds, rfl, ?_⟩
    by_cases hd : isBlank d = true
    · exact Or.inl hd
    · rw [List.dropWhile_cons_of_neg hd] at h
      dsimp only at h
      split at h
      · next he => exact Or.inr he
      · cases h

theorem not_obj_of_scanWord {cs rest : List Nat} {fields : List (List Nat × Doc)} :
    scanWord cs ≠ some (.obj fields, rest) := by
  intro h
  unfold scanWord at h
  split at h
  · next name v hfind =>
    cases h
    have hmem := List.mem_of_find?_eq_some hfind
    simp [constants] at hmem
  · obtain ⟨behind, -, h⟩ := Option.bind_eq_some_iff.mp h
    dsimp only at h
    split at h
    · cases h
    · obtain ⟨n, -, h⟩ := Option.bind_eq_some_iff.mp h
      cases h

/-- An object starts with a brace, and goes on with blanks, a quote or a brace. -/
theorem head_of_scanOnce_obj {fuel : Nat} {cs rest : List Nat} {fields : List (List Nat × Doc)}
    (h : scanOnce fuel cs = some (.obj fields, rest)) :
    ∃ d ds, cs = 0x7b :: d :: ds ∧ (isBlank d = true ∨ d = 0x7d ∨ d = 0x22) := by
  cases fuel with
  | zero => cases h
  | succ fuel =>
    cases cs with
    | nil => cases h
    | cons c cs =>
      rw [scanOnce] at h
      split at h
      · obtain ⟨found, -, he⟩ := Option.map_eq_some_iff.mp h
        cases he
      split at h
      · next hbrace =>
        subst hbrace
        split at h
        · next rest' hrest =>
          obtain ⟨d, ds, rfl, hd⟩ := head_of_expect hrest
          exact ⟨d, ds, rfl, hd.imp_right Or.inl⟩
        · obtain ⟨found, hfound, -⟩ := Option.map_eq_some_iff.mp h
          cases fuel with
          | zero => cases hfound
          | succ fuel =>
            rw [members] at hfound
            obtain ⟨quoted, hquoted, -⟩ := Option.bind_eq_some_iff.mp hfound
            obtain ⟨d, ds, rfl, hd⟩ := head_of_expect hquoted
            exact ⟨d, ds, rfl, hd.imp_right Or.inr⟩
      split at h
      · split at h
        · cases h
        · obtain ⟨found, -, he⟩ := Option.map_eq_some_iff.mp h
          cases he
      · exact absurd h not_obj_of_scanWord

/-- The text of an object starts with an ASCII character and another one, neither NUL. -/
theorem head_of_decode_obj {cs : List Nat} {fields : List (List Nat × Doc)}
    (h : decode cs = some (.obj fields)) :
    ∃ c d ds, cs = c :: d :: ds ∧ c < 0x80 ∧ c ≠ 0 ∧ d ≠ 0 := by
  have hblank : ∀ c, isBlank c = true → c < 0x80 ∧ c ≠ 0 := by
    intro c hc
    simp only [isBlank, Bool.or_eq_true, beq_iff_eq] at hc
    omega
  obtain ⟨found, hfound, h⟩ := Option.bind_eq_some_iff.mp h
  obtain ⟨v, rest⟩ := found
  dsimp only at h
  split at h
  · cases h
    obtain ⟨d, ds, hskip, hd⟩ := head_of_scanOnce_obj hfound
    cases cs with
    | nil => cases hskip
    | cons c cs =>
      by_cases hc : isBlank c = true
      · -- blanks in front: the next character is a blank or the brace
        have hnext : expect 0x7b cs = some (d :: ds) := by
          unfold skipBlanks at hskip
          rw [List.dropWhile_cons_of_pos hc] at hskip
          unfold expect skipBlanks
          rw [hskip]
          rfl
        obtain ⟨d', ds', rfl, hd'⟩ := head_of_expect hnext
        refine ⟨c, d', ds', rfl, (hblank c hc).1, (hblank c hc).2, ?_⟩
        rcases hd' with hd' | rfl
        · exact (hblank d' hd').2
        · decide
      · unfold skipBlanks at hskip
        rw [List.dropWhile_cons_of_neg hc] at hskip
        cases hskip
        refine ⟨0x7b, d, ds, rfl, by decide, by decide, ?_⟩
        rcases hd with hd | rfl | rfl
        · exact (hblank d hd).2
        · decide
        · decide
  · cases h

end JsonText

/-- The UTF-8 bytes of an object's text load as that object. -/
theorem Doc.loads_encodeUtf8 {s : String} {fields : List (List Nat × Doc)}
    (h : JsonText.decode (codePoints s) = some (.obj fields)) :
    Doc.loads (encodeUtf8 s) = some (.obj fields) := by
  obtain ⟨c, d, ds, hs, hc, hc0, hd0⟩ := JsonText.head_of_decode_obj h
  obtain ⟨c, cs, hcs, rfl, hrest⟩ := List.map_eq_cons_iff.mp hs
  obtain ⟨d, cs, rfl, rfl, -⟩ := List.map_eq_cons_iff.mp hrest
  unfold Doc.loads
  rw [decodeDetected_encodeUtf8 hcs hc hc0 hd0]
  exact h

end Py
