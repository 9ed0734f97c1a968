import Mathlib.Data.List.Infix

/-!
# Shell patterns

`fnmatch.fnmatchcase`: a pattern is translated to items (`*`, `?`, sets and
characters) and the items are matched against the whole name.  The translation
follows the library's handling of hyphens, empty ranges and negation in sets.

    an escaped text matches itself and nothing else          (fnmatchcase_escape)
    a plain text and a star match what begins with the text  (fnmatchcase_star)
-/

namespace Py.Fnmatch

/-- One item of a translated pattern. -/
inductive Item where
  | star
  | any
  | char (c : Char)
  /-- A set of character ranges, perhaps negated. -/
  | set (negated : Bool) (ranges : List (Char × Char))
  deriving DecidableEq

def Item.accepts : Item → Char → Bool
  | star, _ => true
  | any, _ => true
  | char d, c => c == d
  | set negated ranges, c => negated != ranges.any fun r => r.1 ≤ c && c ≤ r.2

/-! ## Sets -/

/-- The contents of a set and what follows its closing bracket, which is not the first
character of the contents. -/
def splitSet (cs : List Char) : Option (List Char × List Char) :=
  let negation := if cs.head? = some '!' then ['!'] else []
  let cs := cs.drop negation.length
  let bracket := if cs.head? = some ']' then [']'] else []
  let cs := cs.drop bracket.length
  match cs.span (· != ']') with
  | (body, _ :: rest) => some (negation ++ bracket ++ body, rest)
  | (_, []) => none

/-- The chunks between the hyphens that make ranges: a hyphen does when at least `skip`
characters precede it in its chunk.  The first argument bounds the number of chunks. -/
def chunks : Nat → Nat → List Char → List (List Char)
  | 0, _, cs => [cs]
  | fuel + 1, skip, cs =>
    match (cs.drop skip).span (· != '-') with
    | (body, _ :: rest) => (cs.take skip ++ body) :: chunks fuel 2 rest
    | (_, []) => [cs]

/-- A hyphen at the end is a character. -/
def closeChunks : List (List Char) → List (List Char)
  | [] => []
  | [c, []] => [c ++ ['-']]
  | c :: cs => c :: closeChunks cs

/-- Ranges from a larger to a smaller character vanish with their ends. -/
def dropEmptyRanges : List (List Char) → List (List Char)
  | [] => []
  | c :: cs =>
    match dropEmptyRanges cs with
    | [] => [c]
    | d :: ds =>
      match c.getLast?, d.head? with
      | some lo, some hi => if hi < lo then (c.dropLast ++ d.tail) :: ds else c :: d :: ds
      | _, _ => c :: d :: ds

/-- The characters of the chunks and the ranges between neighbours. -/
def ranges : List (List Char) → List (Char × Char)
  | [] => []
  | c :: cs =>
    let own := c.map fun x => (x, x)
    match c.getLast?, (cs.head?).bind List.head? with
    | some lo, some hi => own ++ (lo, hi) :: ranges cs
    | _, _ => own ++ ranges cs

/-- The item of a set with these contents. -/
def setItem (contents : List Char) : Item :=
  let skip := if contents.head? = some '!' then 2 else 1
  let cs :=
    if contents.contains '-' then
      dropEmptyRanges (closeChunks (chunks contents.length skip contents))
    else [contents]
  match cs with
  | ['!'] :: c :: cs => .set true (ranges (('-' :: c) :: cs))
  | ('!' :: c) :: cs => .set true (ranges (c :: cs))
  | cs => .set false (ranges cs)

/-! ## Patterns -/

/-- `translate(pat)`; the first argument bounds the length of the pattern. -/
def translate : Nat → List Char → List Item
  | 0, _ => []
  | _ + 1, [] => []
  | fuel + 1, c :: cs =>
    if c = '*' then .star :: translate fuel cs
    else if c = '?' then .any :: translate fuel cs
    else if c = '[' then
      match splitSet cs with
      | none => .char '[' :: translate fuel cs
      | some (contents, rest) => setItem contents :: translate fuel rest
    else .char c :: translate fuel cs

def matchItems : List Item → List Char → Bool
  | [], cs => cs.isEmpty
  | .star :: items, cs => cs.tails.any (matchItems items)
  | _ :: _, [] => false
  | item :: items, c :: cs => item.accepts c && matchItems items cs

/-! ## Patterns of one text -/

def special (c : Char) : Bool := c == '*' || c == '?' || c == '['

/-- The pattern of a text: special characters stand in a set of their own. -/
def escape (cs : List Char) : List Char :=
  cs.flatMap fun c => if special c then ['[', c, ']'] else [c]

/-- The item an escaped character is translated to. -/
def exactly (c : Char) : Item := if special c then .set false [(c, c)] else .char c

theorem exactly_accepts (c d : Char) : (exactly c).accepts d = (d == c) := by
  unfold exactly
  split
  · have hc : (c ≤ d && d ≤ c) = (d == c) := by
      rw [Bool.eq_iff_iff, Bool.and_eq_true, decide_eq_true_eq, decide_eq_true_eq, beq_iff_eq]
      exact ⟨fun h => Char.le_antisymm h.2 h.1, fun h => h ▸ ⟨Char.le_refl _, Char.le_refl _⟩⟩
    simp [Item.accepts, hc]
  · rfl

theorem translate_escape {cs : List Char} {fuel : Nat} (h : (escape cs).length ≤ fuel) :
    translate fuel (escape cs) = cs.map exactly := by
  induction cs generalizing fuel with
  | nil => cases fuel <;> rfl
  | cons c cs ih =>
    have hcons : escape (c :: cs) = (if special c then ['[', c, ']'] else [c]) ++ escape cs := rfl
    rw [hcons] at h ⊢
    by_cases hc : special c = true
    · rw [if_pos hc] at h ⊢
      obtain ⟨fuel, rfl⟩ : ∃ n, fuel = n + 1 := ⟨fuel - 1, by simp at h; omega⟩
      have hrest : (escape cs).length ≤ fuel := by simp at h; omega
      have hset : splitSet (c :: ']' :: escape cs) = some ([c], escape cs) ∧
          setItem [c] = exactly c := by
        simp only [special, Bool.or_eq_true, beq_iff_eq] at hc
        rcases hc with (rfl | rfl) | rfl <;> exact ⟨rfl, rfl⟩
      simp [translate, hset.1, hset.2, ih hrest]
    · rw [if_neg hc] at h ⊢
      obtain ⟨fuel, rfl⟩ : ∃ n, fuel = n + 1 := ⟨fuel - 1, by simp at h; omega⟩
      have hrest : (escape cs).length ≤ fuel := by simp at h; omega
      have hitem : exactly c = .char c := if_neg hc
      simp only [special, Bool.or_eq_true, beq_iff_eq, not_or] at hc
      simp [translate, hc.1.1, hc.1.2, hc.2, hitem, ih hrest]

theorem matchItems_exactly (cs name : List Char) :
    matchItems (cs.map exactly) name = (name == cs) := by
  induction cs generalizing name with
  | nil => cases name <;> rfl
  | cons c cs ih =>
    cases name with
    | nil =>
      unfold exactly
      rw [List.map_cons]
      split <;> rfl
    | cons d name =>
      have hstep : matchItems (exactly c :: cs.map exactly) (d :: name) =
          ((exactly c).accepts d && matchItems (cs.map exactly) name) := by
        unfold exactly
        split <;> rfl
      rw [List.map_cons, hstep, exactly_accepts, ih]
      rfl

/-! ## Patterns of a prefix -/

/-- Characters that are not special are translated to themselves. -/
theorem translate_star {cs : List Char} (hcs : ∀ c ∈ cs, special c = false) {fuel : Nat}
    (h : cs.length < fuel) : translate fuel (cs ++ ['*']) = cs.map .char ++ [.star] := by
  induction cs generalizing fuel with
  | nil =>
    obtain ⟨fuel, rfl⟩ := Nat.exists_eq_succ_of_ne_zero (Nat.ne_of_gt h)
    cases fuel <;> rfl
  | cons c cs ih =>
    obtain ⟨fuel, rfl⟩ := Nat.exists_eq_succ_of_ne_zero (Nat.ne_of_gt (Nat.zero_lt_of_lt h))
    obtain ⟨hc, hrest⟩ := List.forall_mem_cons.mp hcs
    simp only [special, Bool.or_eq_false_iff, beq_eq_false_iff_ne] at hc
    simp [translate, hc.1.1, hc.1.2, hc.2, ih hrest (Nat.lt_of_succ_lt_succ h)]

theorem matchItems_star (cs name : List Char) :
    matchItems (cs.map .char ++ [.star]) name = cs.isPrefixOf name := by
  induction cs generalizing name with
  | nil => simp [matchItems]
  | cons c cs ih =>
    cases name with
    | nil => rfl
    | cons d name =>
      rw [List.map_cons, List.cons_append, matchItems, ih, Item.accepts, List.isPrefixOf_cons_cons,
        Bool.beq_comm]
      all_goals simp

end Py.Fnmatch

/-- `fnmatch.fnmatchcase(name, pat)`. -/
def Py.fnmatchcase (name pat : String) : Bool :=
  Fnmatch.matchItems (Fnmatch.translate pat.length pat.toList) name.toList

/-- An escaped text matches itself and nothing else. -/
theorem Py.fnmatchcase_escape (name s : String) :
    fnmatchcase name (String.ofList (Fnmatch.escape s.toList)) = (name == s) := by
  unfold fnmatchcase
  rw [String.toList_ofList, Fnmatch.translate_escape (by simp), Fnmatch.matchItems_exactly]
  rw [Bool.eq_iff_iff, beq_iff_eq, beq_iff_eq, String.toList_inj]

/-- Without special characters, a text and a star match what begins with the text. -/
theorem Py.fnmatchcase_star {s : String} (hs : ∀ c ∈ s.toList, Fnmatch.special c = false)
    (name : String) : fnmatchcase name (s ++ "*") = s.toList.isPrefixOf name.toList := by
  have hstar : (s ++ "*").toList = s.toList ++ ['*'] := by simp
  have hlength : s.toList.length < (s ++ "*").length := by
    rw [← String.length_toList, hstar, List.length_append]
    exact Nat.lt_succ_self _
  unfold fnmatchcase
  rw [hstar, Fnmatch.translate_star hs hlength, Fnmatch.matchItems_star]
