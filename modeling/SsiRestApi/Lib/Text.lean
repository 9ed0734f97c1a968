import Mathlib.Data.List.Basic

/-!
# Text operations of the Python standard library

`str.split`, `str.strip`, `str.join`, `str.partition`, `str.startswith`,
`str.replace`, `str.upper`, `str.lower`, prefix slices and `int`, on `String` through
its list of characters.

    words (join " " l) = l.flatMap words          (words_join)
-/

namespace Py

/-- `str.isspace` of one character. -/
def isSpace (c : Char) : Bool :=
  let n := c.toNat
  (9 ≤ n && n ≤ 13) || (28 ≤ n && n ≤ 32) || n == 0x85 || n == 0xa0 || n == 0x1680 ||
    (0x2000 ≤ n && n ≤ 0x200a) || n == 0x2028 || n == 0x2029 || n == 0x202f || n == 0x205f ||
    n == 0x3000

def startsWith (s p : String) : Bool := p.toList.isPrefixOf s.toList

/-- `s[:n]`. -/
def slice (s : String) (n : Nat) : String := String.ofList (s.toList.take n)

/-- `s[n:]`. -/
def dropChars (s : String) (n : Nat) : String := String.ofList (s.toList.drop n)

/-- `s.strip()`. -/
def strip (s : String) : String :=
  String.ofList (((s.toList.dropWhile isSpace).reverse.dropWhile isSpace).reverse)

/-- The blanks that `int` allows around a number: without the ASCII separators. -/
def isIntSpace (c : Char) : Bool := isSpace c && !(28 ≤ c.toNat && c.toNat ≤ 31)

/-- `s` without the blanks around the number that `int` reads. -/
def stripInt (s : String) : String :=
  String.ofList (((s.toList.dropWhile isIntSpace).reverse.dropWhile isIntSpace).reverse)

/-- `s.split(sep)` for a one-character separator. -/
def splitOn (sep : Char) (s : String) : List String :=
  (s.toList.splitOnP (· == sep)).map String.ofList

/-- `s.split()`: the maximal runs of non-blank characters. -/
def words (s : String) : List String :=
  ((s.toList.splitOnP isSpace).filter (· ≠ [])).map String.ofList

/-- `sep.join(l)`. -/
def join (sep : String) (l : List String) : String :=
  String.ofList (sep.toList.intercalate (l.map String.toList))

/-- `s.partition(sep)` without its middle part. -/
def partition (sep : Char) (s : String) : String × String :=
  (String.ofList (s.toList.takeWhile (· != sep)),
   String.ofList ((s.toList.dropWhile (· != sep)).drop 1))

/-- `s.replace(a, b)` for two characters. -/
def replaceChar (a b : Char) (s : String) : String :=
  String.ofList (s.toList.map fun c => if c = a then b else c)

/-- The upper case of a character, as far as it has ASCII characters; no comparison with
ASCII text tells the others apart. -/
def upperChar (c : Char) : List Char :=
  match c.toNat with
  | 0xdf => ['S', 'S']
  | 0x131 => ['I']
  | 0x17f => ['S']
  | 0xfb00 => ['F', 'F']
  | 0xfb01 => ['F', 'I']
  | 0xfb02 => ['F', 'L']
  | 0xfb03 => ['F', 'F', 'I']
  | 0xfb04 => ['F', 'F', 'L']
  | 0xfb05 => ['S', 'T']
  | 0xfb06 => ['S', 'T']
  | _ => [c.toUpper]

/-- `s.upper()`. -/
def upper (s : String) : String := String.ofList (s.toList.flatMap upperChar)

/-- The lower case of a character, with the same reservation. -/
def lowerChar (c : Char) : List Char :=
  match c.toNat with
  | 0x130 => ['i', Char.ofNat 0x307]
  | 0x212a => ['k']
  | _ => [c.toLower]

/-- `s.lower()`. -/
def lower (s : String) : String := String.ofList (s.toList.flatMap lowerChar)

/-- The zero of every block of decimal digits. -/
def decimalZeros : List Nat :=
  [0x30, 0x660, 0x6f0, 0x7c0, 0x966, 0x9e6, 0xa66, 0xae6, 0xb66, 0xbe6, 0xc66, 0xce6, 0xd66,
   0xde6, 0xe50, 0xed0, 0xf20, 0x1040, 0x1090, 0x17e0, 0x1810, 0x1946, 0x19d0, 0x1a80, 0x1a90,
   0x1b50, 0x1bb0, 0x1c40, 0x1c50, 0xa620, 0xa8d0, 0xa900, 0xa9d0, 0xa9f0, 0xaa50, 0xabf0,
   0xff10, 0x104a0, 0x10d30, 0x11066, 0x110f0, 0x11136, 0x111d0, 0x112f0, 0x11450, 0x114d0,
   0x11650, 0x116c0, 0x11730, 0x118e0, 0x11950, 0x11c50, 0x11d50, 0x11da0, 0x16a60, 0x16ac0,
   0x16b50, 0x1d7ce, 0x1d7d8, 0x1d7e2, 0x1d7ec, 0x1d7f6, 0x1e140, 0x1e2f0, 0x1e950, 0x1fbf0]

def digitValue (c : Char) : Option Nat :=
  (decimalZeros.find? fun z => z ≤ c.toNat && c.toNat < z + 10).map fun z => c.toNat - z

/-- Decimal digits with single underscores between them; the flag says that the last
character was a digit. -/
def decimalDigits : Bool → List Char → Option (List Nat)
  | afterDigit, [] => if afterDigit then some [] else none
  | afterDigit, c :: cs =>
    if c = '_' then
      if afterDigit then decimalDigits false cs else none
    else match digitValue c, decimalDigits true cs with
      | some d, some ds => some (d :: ds)
      | _, _ => none

/-- `int(s)` of a text; `none` is a `ValueError`, also for more digits than CPython converts. -/
def parseInt (s : String) : Option Int :=
  let number (cs : List Char) : Option Nat :=
    match decimalDigits false cs with
    | some ds => if ds.length ≤ 4300 then some (ds.foldl (fun n d => 10 * n + d) 0) else none
    | none => none
  match (stripInt s).toList with
  | '-' :: cs => (number cs).map fun n => -(n : Int)
  | '+' :: cs => (number cs).map fun n => (n : Int)
  | cs => (number cs).map fun n => (n : Int)

/-! ## Decimal numbers -/

/-- `\d`. -/
def isDecimal (c : Char) : Bool := (digitValue c).isSome

/-- `int(s)` of a text of decimal digits. -/
def ofDecimals (cs : List Char) : Nat := cs.foldl (fun n c => 10 * n + (digitValue c).getD 0) 0

theorem digitValue_of_isDigit {c : Char} (h : c.isDigit = true) :
    digitValue c = some (c.toNat - '0'.toNat) := by
  rw [Char.isDigit_iff_toNat] at h
  have hzero : '0'.toNat = 48 := rfl
  have hnine : '9'.toNat = 57 := rfl
  have hrange : 0x30 ≤ c.toNat ∧ c.toNat < 0x30 + 10 := by omega
  unfold digitValue decimalZeros
  rw [List.find?_cons_of_pos (by simpa using hrange)]
  rfl

theorem isDecimal_of_mem_toDigits {n : Nat} {c : Char} (h : c ∈ Nat.toDigits 10 n) :
    isDecimal c = true := by
  unfold isDecimal
  rw [digitValue_of_isDigit (Nat.isDigit_of_mem_toDigits (by decide) (by decide) h)]
  rfl

/-- Reading the digits of a number gives the number. -/
theorem ofDecimals_toDigits (n : Nat) : ofDecimals (Nat.toDigits 10 n) = n := by
  have hfold : ∀ (cs : List Char) (k : Nat), (∀ c ∈ cs, c.isDigit = true) →
      cs.foldl (fun n c => 10 * n + (digitValue c).getD 0) k = Nat.ofDigitChars 10 cs k := by
    intro cs
    induction cs with
    | nil =>
      intro k _
      exact Nat.ofDigitChars_nil.symm
    | cons c cs ih =>
      intro k hcs
      rw [List.foldl_cons, digitValue_of_isDigit (hcs c List.mem_cons_self), Option.getD_some,
        ih _ fun d hd => hcs d (List.mem_cons_of_mem _ hd), Nat.ofDigitChars_cons]
  unfold ofDecimals
  rw [hfold _ _ fun c hc => Nat.isDigit_of_mem_toDigits (by decide) (by decide) hc,
    Nat.ofDigitChars_ten_toDigits]

/-! ## Prefixes -/

theorem startsWith_append (p s : String) : startsWith (p ++ s) p = true := by
  simp [startsWith, String.toList_append]

theorem dropChars_append (p s : String) : dropChars (p ++ s) p.toList.length = s := by
  unfold dropChars
  rw [String.toList_append, List.drop_left, String.ofList_toList]

theorem exists_of_startsWith {s p : String} (h : startsWith s p = true) : ∃ t, s = p ++ t := by
  obtain ⟨cs, hcs⟩ := List.isPrefixOf_iff_prefix.mp h
  refine ⟨String.ofList cs, String.toList_inj.mp ?_⟩
  rw [String.toList_append, String.toList_ofList, hcs]

/-- A text without blanks is stripped already. -/
theorem strip_eq_self {s : String} (h : ∀ c ∈ s.toList, isSpace c = false) : strip s = s := by
  have hdrop : ∀ l : List Char, (∀ c ∈ l, isSpace c = false) → l.dropWhile isSpace = l := by
    intro l hl
    cases l with
    | nil => rfl
    | cons c l => exact List.dropWhile_cons_of_neg (by simp [hl c])
  unfold strip
  rw [hdrop _ h, hdrop _ (by simpa using h), List.reverse_reverse, String.ofList_toList]

/-- Printable ASCII is not blank. -/
theorem isSpace_of_printable {c : Char} (h : 32 < c.toNat ∧ c.toNat < 127) : isSpace c = false := by
  unfold isSpace
  dsimp only
  simp only [Bool.or_eq_false_iff, Bool.and_eq_false_iff, decide_eq_false_iff_not, beq_eq_false_iff_ne]
  omega

/-! ## Splitting -/

theorem beq_eq_false_of_not_mem {sep : Char} {cs : List Char} (h : sep ∉ cs) :
    ∀ c ∈ cs, (c == sep) = false := by
  intro c hc
  rw [beq_eq_false_iff_ne]
  rintro rfl
  exact h hc

theorem splitOn_append_cons {sep : Char} {s : String} (h : sep ∉ s.toList) (t : String) :
    splitOn sep (s ++ String.singleton sep ++ t) = s :: splitOn sep t := by
  unfold splitOn
  rw [String.toList_append, String.toList_append, String.toList_singleton, List.append_assoc,
    List.singleton_append, List.splitOnP_append_cons_of_forall_mem (beq_eq_false_of_not_mem h) sep
      (beq_self_eq_true sep), List.map_cons, String.ofList_toList]

theorem splitOn_eq_singleton {sep : Char} {s : String} (h : sep ∉ s.toList) :
    splitOn sep s = [s] := by
  unfold splitOn
  rw [List.splitOnP_eq_singleton (beq_eq_false_of_not_mem h), List.map_cons, List.map_nil,
    String.ofList_toList]

theorem partition_append {sep : Char} {s : String} (h : sep ∉ s.toList) (t : String) :
    partition sep (s ++ String.singleton sep ++ t) = (s, t) := by
  have hs : ∀ c ∈ s.toList, (c != sep) = true := by
    intro c hc
    rw [bne_iff_ne]
    rintro rfl
    exact h hc
  have hlist : (s ++ String.singleton sep ++ t).toList = s.toList ++ sep :: t.toList := by
    simp
  unfold partition
  rw [hlist, List.takeWhile_append_of_pos hs, List.dropWhile_append_of_pos hs,
    List.takeWhile_cons_of_neg (by simp), List.dropWhile_cons_of_neg (by simp), List.append_nil,
    List.drop_one, List.tail_cons, String.ofList_toList, String.ofList_toList]

/-- The first piece of a text keeps what it starts with, up to a separator. -/
theorem splitOn_append {sep : Char} {p : String} (h : sep ∉ p.toList) (t : String) :
    ∃ head rest, splitOn sep (p ++ t) = (p ++ head) :: rest := by
  have hsplit : ∀ cs : List Char, sep ∉ cs → ∃ head rest,
      (cs ++ t.toList).splitOnP (· == sep) = (cs ++ head) :: rest := by
    intro cs hcs
    induction cs with
    | nil =>
      cases hs : t.toList.splitOnP (· == sep) with
      | nil => exact absurd hs (List.splitOnP_ne_nil _ _)
      | cons head rest => exact ⟨head, rest, hs⟩
    | cons c cs ih =>
      obtain ⟨head, rest, hrest⟩ := ih (fun hin => hcs (List.mem_cons_of_mem _ hin))
      have hc : ¬ (c == sep) = true := by
        rw [beq_iff_eq]
        rintro rfl
        exact hcs List.mem_cons_self
      refine ⟨head, rest, ?_⟩
      rw [List.cons_append, List.splitOnP_cons_eq_if_modifyHead, if_neg hc, hrest]
      rfl
  obtain ⟨head, rest, hrest⟩ := hsplit p.toList h
  refine ⟨String.ofList head, rest.map String.ofList, ?_⟩
  unfold splitOn
  rw [String.toList_append, hrest, List.map_cons]
  congr 1
  rw [← String.toList_inj, String.toList_ofList, String.toList_append, String.toList_ofList]

/-! ## Words -/

@[simp] theorem words_empty : words "" = [] := by
  simp [words]

theorem words_append_space (s t : String) (c : Char) (hc : isSpace c = true) :
    words (String.ofList (s.toList ++ c :: t.toList)) = words s ++ words t := by
  unfold words
  rw [String.toList_ofList, List.splitOnP_append_cons _ _ hc, List.filter_append, List.map_append]

/-- Joining on a blank adds no word and loses none. -/
theorem words_join (l : List String) : words (join " " l) = l.flatMap words := by
  induction l with
  | nil => simp [join]
  | cons s l ih =>
    cases l with
    | nil => simp [join, String.ofList_toList]
    | cons t l =>
      have hj : join " " (s :: t :: l) =
          String.ofList (s.toList ++ ' ' :: (join " " (t :: l)).toList) := by
        simp [join, List.intercalate_cons_cons]
      rw [hj, words_append_space _ _ _ (by decide), ih, List.flatMap_cons (x := s)]

/-! ## Joining -/

theorem toList_join_cons (sep s : String) (l : List String) :
    (join sep (s :: l)).toList = s.toList ++ l.flatMap fun s => sep.toList ++ s.toList := by
  induction l generalizing s with
  | nil => simp [join]
  | cons s' l ih =>
    have hstep : (join sep (s :: s' :: l)).toList =
        s.toList ++ (sep.toList ++ (join sep (s' :: l)).toList) := by
      simp [join, List.intercalate_cons_cons]
    rw [hstep, ih, List.flatMap_cons, List.append_assoc]

/-- The text of a list around one of its members. -/
theorem toList_join_append_cons (sep : String) (before : List String) (t : String)
    (after : List String) :
    (join sep (before ++ t :: after)).toList =
      (before.flatMap fun s => s.toList ++ sep.toList) ++
        (t.toList ++ after.flatMap fun s => sep.toList ++ s.toList) := by
  induction before with
  | nil => exact toList_join_cons sep t after
  | cons s before ih =>
    rw [List.cons_append, toList_join_cons, List.flatMap_cons, List.append_assoc, ← ih]
    cases before with
    | nil =>
      rw [List.nil_append, toList_join_cons, List.flatMap_cons, List.append_assoc,
        List.append_assoc]
    | cons s' before =>
      rw [List.cons_append, toList_join_cons, List.flatMap_cons, List.append_assoc,
        List.append_assoc]

/-- Joining adds the separators between the texts, and splitting at them loses none. -/
theorem splitOn_join_flatMap {sep : Char} {l : List String} (hl : l ≠ []) :
    splitOn sep (join (String.singleton sep) l) = l.flatMap (splitOn sep) := by
  induction l with
  | nil => exact absurd rfl hl
  | cons s l ih =>
    cases l with
    | nil => simp [join, String.ofList_toList]
    | cons t l =>
      have hj : (join (String.singleton sep) (s :: t :: l)).toList =
          s.toList ++ sep :: (join (String.singleton sep) (t :: l)).toList := by
        simp [join, List.intercalate_cons_cons]
      rw [List.flatMap_cons, ← ih (by simp)]
      unfold splitOn
      rw [hj, List.splitOnP_append_cons (p := fun c => c == sep) _ _ (beq_self_eq_true sep),
        List.map_append]

theorem splitOn_join {sep : Char} {l : List String} (hl : l ≠ [])
    (h : ∀ s ∈ l, sep ∉ s.toList) : splitOn sep (join (String.singleton sep) l) = l := by
  rw [splitOn_join_flatMap hl]
  calc l.flatMap (splitOn sep)
      = l.flatMap fun s => [s] := List.flatMap_congr fun s hs => splitOn_eq_singleton (h s hs)
    _ = l := by simp

theorem join_splitOn (sep : Char) (s : String) : join (String.singleton sep) (splitOn sep s) = s := by
  have hsplit : (splitOn sep s).map String.toList = s.toList.splitOn sep := by
    unfold splitOn
    rw [List.map_map]
    simp [Function.comp_def, List.splitOn]
  unfold join
  rw [hsplit, String.toList_singleton, List.intercalate_splitOn, String.ofList_toList]

theorem splitOn_ne_nil (sep : Char) (s : String) : splitOn sep s ≠ [] := by
  unfold splitOn
  rw [ne_eq, List.map_eq_nil_iff]
  exact List.splitOnP_ne_nil _ _

/-- Non-empty texts are joined to the same text when they have the same pieces. -/
theorem join_eq_join_iff {sep : Char} {l l' : List String} (h : "" ∉ l) (h' : "" ∉ l') :
    join (String.singleton sep) l = join (String.singleton sep) l' ↔
      l.flatMap (splitOn sep) = l'.flatMap (splitOn sep) := by
  have hempty : ∀ {l : List String}, "" ∉ l →
      (join (String.singleton sep) l = "" ↔ l.flatMap (splitOn sep) = []) := by
    intro l h
    cases l with
    | nil => exact iff_of_true rfl rfl
    | cons s l =>
      refine iff_of_false (fun he => ?_) fun he => ?_
      · have hs := congrArg String.toList he
        rw [toList_join_cons, String.toList_empty, List.append_eq_nil_iff] at hs
        exact h (String.toList_eq_nil_iff.mp hs.1 ▸ List.mem_cons_self)
      · rw [List.flatMap_cons, List.append_eq_nil_iff] at he
        exact splitOn_ne_nil sep s he.1
  rcases eq_or_ne l [] with rfl | hl
  · rw [List.flatMap_nil, eq_comm (b := l'.flatMap _), ← hempty h', eq_comm]
    rfl
  · rcases eq_or_ne l' [] with rfl | hl'
    · rw [List.flatMap_nil, ← hempty h]
      rfl
    · rw [← splitOn_join_flatMap hl, ← splitOn_join_flatMap hl']
      refine ⟨congrArg _, fun he => ?_⟩
      rw [← join_splitOn sep (join _ l), he, join_splitOn]

end Py
