import Mathlib.Data.List.Basic

/-!
# Scanning a text for the matches of a pattern

What `re.sub` does: leftmost matches that do not overlap, and the characters between
them.  A matcher gives what it found at the front of a text and how long the match is.

    what was read renders as the text                          (render_items)
    reading a rendered list gives the list back ↔ Clear         (items_render_iff)
-/

namespace Scan

variable {β γ : Type}

/-- The matches and the other characters, in order; the number counts the characters left of
the last match. -/
def items (m : List Char → Option (β × Nat)) : Nat → List Char → List (Char ⊕ β)
  | _, [] => []
  | skip + 1, _ :: cs => items m skip cs
  | 0, c :: cs =>
    match m (c :: cs) with
    | some (found, length) => .inr found :: items m (length - 1) cs
    | none => .inl c :: items m 0 cs

/-- The text of characters and shown values. -/
def render (shown : γ → List Char) (l : List (Char ⊕ γ)) : List Char :=
  l.flatMap (Sum.elim (fun c => [c]) shown)

section

variable (m : List Char → Option (β × Nat)) (shown : γ → List Char)

/-- No match begins at a plain character. -/
def Clear : List (Char ⊕ γ) → Prop
  | [] => True
  | .inl c :: l => m (c :: render shown l) = none ∧ Clear l
  | .inr _ :: l => Clear l

/-- A match is the shown text of what it found, and not empty. -/
def Lossless (text : β → List Char) : Prop :=
  ∀ cs found length, m cs = some (found, length) →
    0 < length ∧ ∃ rest, cs = text found ++ rest ∧ length = (text found).length

/-- The shown text of a value matches, whatever follows. -/
def Reads (read : γ → β) (b : γ) : Prop :=
  shown b ≠ [] ∧ ∀ rest, m (shown b ++ rest) = some (read b, (shown b).length)

end

variable {m : List Char → Option (β × Nat)} {shown : γ → List Char}

@[simp] theorem render_nil : render shown [] = [] := rfl

@[simp] theorem render_inl (c : Char) (l : List (Char ⊕ γ)) :
    render shown (.inl c :: l) = c :: render shown l := rfl

@[simp] theorem render_inr (b : γ) (l : List (Char ⊕ γ)) :
    render shown (.inr b :: l) = shown b ++ render shown l := rfl

theorem render_append (l l' : List (Char ⊕ γ)) :
    render shown (l ++ l') = render shown l ++ render shown l' := List.flatMap_append

/-- Plain characters render as themselves. -/
theorem render_map_inl (cs : List Char) : render shown (cs.map Sum.inl) = cs := by
  induction cs with
  | nil => rfl
  | cons c cs ih => rw [List.map_cons, render_inl, ih]

/-- Rendering after a translation of the values. -/
theorem render_map {δ : Type} (read : γ → δ) (text : δ → List Char) (l : List (Char ⊕ γ)) :
    render text (l.map (Sum.map id read)) = render (fun b => text (read b)) l := by
  induction l with
  | nil => rfl
  | cons x l ih =>
    cases x with
    | inl c => rw [List.map_cons, Sum.map_inl, render_inl, render_inl, ih, id_eq]
    | inr b => rw [List.map_cons, Sum.map_inr, render_inr, render_inr, ih]

theorem items_skip (pre cs : List Char) : items m pre.length (pre ++ cs) = items m 0 cs := by
  induction pre with
  | nil => rfl
  | cons c pre ih => exact ih

theorem items_inl {c : Char} {cs : List Char} (h : m (c :: cs) = none) :
    items m 0 (c :: cs) = .inl c :: items m 0 cs := by
  rw [items, h]

/-- A match is read as one item, and the scan goes on behind it. -/
theorem items_inr {found : β} {pre cs : List Char} (hne : pre ≠ [])
    (h : m (pre ++ cs) = some (found, pre.length)) :
    items m 0 (pre ++ cs) = .inr found :: items m 0 cs := by
  cases pre with
  | nil => exact absurd rfl hne
  | cons c pre =>
    rw [List.cons_append] at h ⊢
    rw [items, h]
    dsimp only
    rw [List.length_cons, Nat.add_sub_cancel, items_skip]

/-- **Nothing is lost.**  What was read renders as the text. -/
theorem render_items {text : β → List Char} (hm : Lossless m text) (cs : List Char) :
    render text (items m 0 cs) = cs := by
  induction hn : cs.length using Nat.strongRecOn generalizing cs with
  | ind n ih =>
    cases cs with
    | nil => rfl
    | cons c cs =>
      cases hmatch : m (c :: cs) with
      | none =>
        rw [items_inl hmatch, render_inl, ih cs.length (by rw [← hn]; exact Nat.lt_succ_self _) cs rfl]
      | some p =>
        obtain ⟨found, length⟩ := p
        obtain ⟨hpos, rest, hcs, hlength⟩ := hm _ _ _ hmatch
        have hne : text found ≠ [] := by
          intro hnil
          rw [hnil, List.length_nil] at hlength
          omega
        have hrest : rest.length < n := by
          have hsum := congrArg List.length hcs
          rw [List.length_append] at hsum
          omega
        rw [hcs] at hmatch ⊢
        rw [hlength] at hmatch
        rw [items_inr hne hmatch, render_inr, ih rest.length hrest rest rfl]

/-- What is read is what the matcher finds. -/
theorem of_mem_items {P : β → Prop} (hm : ∀ cs b length, m cs = some (b, length) → P b)
    {skip : Nat} {cs : List Char} {b : β} (h : .inr b ∈ items m skip cs) : P b := by
  induction cs generalizing skip with
  | nil =>
    unfold items at h
    cases h
  | cons c cs ih =>
    cases skip with
    | succ skip => exact ih h
    | zero =>
      rw [items] at h
      split at h
      · next found length hmatch =>
        rcases List.mem_cons.mp h with heq | h
        · cases heq
          exact hm _ _ _ hmatch
        · exact ih h
      · rcases List.mem_cons.mp h with heq | h
        · cases heq
        · exact ih h

/-- **Reading back.**  A rendered list reads as itself exactly when no plain character of it
begins a match. -/
theorem items_render_iff {read : γ → β} {l : List (Char ⊕ γ)}
    (hl : ∀ b, .inr b ∈ l → Reads m shown read b) :
    items m 0 (render shown l) = l.map (Sum.map id read) ↔ Clear m shown l := by
  induction l with
  | nil => exact iff_of_true rfl trivial
  | cons x l ih =>
    have ih := ih fun b hb => hl b (List.mem_cons_of_mem _ hb)
    cases x with
    | inr b =>
      obtain ⟨hne, hmatch⟩ := hl b List.mem_cons_self
      rw [render_inr, items_inr hne (hmatch _), List.map_cons, Sum.map_inr, List.cons_inj_right, ih]
      rfl
    | inl c =>
      rw [render_inl, List.map_cons, Sum.map_inl, id_eq]
      cases hmatch : m (c :: render shown l) with
      | none =>
        rw [items_inl hmatch, List.cons_inj_right, ih]
        exact ⟨fun h => ⟨hmatch, h⟩, fun h => h.2⟩
      | some p =>
        constructor
        · intro h
          rw [items, hmatch] at h
          cases h
        · rintro ⟨hnone, -⟩
          rw [hmatch] at hnone
          cases hnone

/-- A list is clear when no match begins with one of its plain characters. -/
theorem clear_of_forall {l : List (Char ⊕ γ)}
    (h : ∀ c, .inl c ∈ l → ∀ cs, m (c :: cs) = none) : Clear m shown l := by
  induction l with
  | nil => trivial
  | cons x l ih =>
    have ih := ih fun c hc => h c (List.mem_cons_of_mem _ hc)
    cases x with
    | inl c => exact ⟨h c List.mem_cons_self _, ih⟩
    | inr b => exact ih

end Scan
