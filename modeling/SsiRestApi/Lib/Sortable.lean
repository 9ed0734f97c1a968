import Mathlib.Data.Char
import Mathlib.Data.List.Lex
import Mathlib.Data.Prod.Lex

/-!
# Texts that sort as what they stand for

A text of fixed width whose lexicographic order is the order of the values it writes: decimal
numbers of one length, and one such text after another with separators between them.

    pairs of sortable texts sort as pairs                           (Sortable.pair)
-/

/-- The values with `P` are written in one width, in their order. -/
structure Sortable {α : Type} (lt : α → α → Prop) (P : α → Prop) (text : α → List Char) : Prop where
  length_eq : ∀ a b, P a → P b → (text a).length = (text b).length
  lt_iff : ∀ a b, P a → P b → (text a < text b ↔ lt a b)
  inj : ∀ a b, P a → P b → text a = text b → a = b

namespace Sortable

/-- Texts of one length decide before what follows them does. -/
theorem append_lt_append_iff {α : Type} [LinearOrder α] {xs ys : List α}
    (h : xs.length = ys.length) (s t : List α) :
    xs ++ s < ys ++ t ↔ xs < ys ∨ xs = ys ∧ s < t := by
  induction xs generalizing ys with
  | nil =>
    obtain rfl := List.eq_nil_of_length_eq_zero h.symm
    simp
  | cons x xs ih =>
    cases ys with
    | nil => cases h
    | cons y ys =>
      rw [List.cons_append, List.cons_append, List.cons_lt_cons_iff, List.cons_lt_cons_iff,
        ih (Nat.succ.inj h), List.cons.injEq]
      tauto

section

variable {α β : Type} {lt : α → α → Prop} {lt' : β → β → Prop} {P : α → Prop} {P' : β → Prop}
  {text : α → List Char} {text' : β → List Char}

/-- One text after the other, with a separator. -/
theorem pair (h : Sortable lt P text) (h' : Sortable lt' P' text') (sep : List Char) :
    Sortable (Prod.Lex lt lt') (fun p => P p.1 ∧ P' p.2)
      (fun p => text p.1 ++ (sep ++ text' p.2)) := by
  constructor
  · rintro ⟨a, b⟩ ⟨c, d⟩ ⟨ha, hb⟩ ⟨hc, hd⟩
    simp only [List.length_append, h.length_eq a c ha hc, h'.length_eq b d hb hd]
  · rintro ⟨a, b⟩ ⟨c, d⟩ ⟨ha, hb⟩ ⟨hc, hd⟩
    rw [Prod.lex_def, append_lt_append_iff (h.length_eq a c ha hc), append_lt_append_iff rfl,
      h.lt_iff a c ha hc, h'.lt_iff b d hb hd]
    have hsep : ¬ sep < sep := List.lt_irrefl sep
    have heq : text a = text c ↔ a = c := ⟨h.inj a c ha hc, congrArg text⟩
    rw [heq]
    tauto
  · rintro ⟨a, b⟩ ⟨c, d⟩ ⟨ha, hb⟩ ⟨hc, hd⟩ he
    obtain ⟨hfirst, hrest⟩ := List.append_inj he (h.length_eq a c ha hc)
    rw [h.inj a c ha hc hfirst, h'.inj b d hb hd (List.append_cancel_left hrest)]

/-- The same end to every text. -/
theorem append (h : Sortable lt P text) (suffix : List Char) :
    Sortable lt P (fun a => text a ++ suffix) := by
  constructor
  · intro a b ha hb
    simp only [List.length_append, h.length_eq a b ha hb]
  · intro a b ha hb
    rw [append_lt_append_iff (h.length_eq a b ha hb), h.lt_iff a b ha hb]
    have hsuffix : ¬ suffix < suffix := List.lt_irrefl suffix
    tauto
  · intro a b ha hb he
    exact h.inj a b ha hb (List.append_cancel_right he)

theorem congr (h : Sortable lt P text) {lt₂ : α → α → Prop} {P₂ : α → Prop}
    {text₂ : α → List Char} (hP : ∀ a, P₂ a → P a) (hlt : ∀ a b, lt₂ a b ↔ lt a b)
    (htext : ∀ a, text₂ a = text a) : Sortable lt₂ P₂ text₂ := by
  obtain rfl : text₂ = text := funext htext
  exact ⟨fun a b ha hb => h.length_eq a b (hP a ha) (hP b hb),
    fun a b ha hb => (h.lt_iff a b (hP a ha) (hP b hb)).trans (hlt a b).symm,
    fun a b ha hb => h.inj a b (hP a ha) (hP b hb)⟩

end

/-! ## Decimal numbers -/

/-- Texts of numbers that ascend with them. -/
theorem of_lt {P : Nat → Prop} {text : Nat → List Char}
    (hlength : ∀ m n, P m → P n → (text m).length = (text n).length)
    (hlt : ∀ m n, P m → P n → m < n → text m < text n) : Sortable (· < ·) P text := by
  have hiff : ∀ m n, P m → P n → (text m < text n ↔ m < n) := by
    intro m n hm hn
    refine ⟨fun h => ?_, hlt m n hm hn⟩
    by_contra hle
    rcases Nat.lt_or_eq_of_le (Nat.not_lt.mp hle) with hgt | rfl
    · exact List.lt_asymm h (hlt n m hn hm hgt)
    · exact List.lt_irrefl _ h
  refine ⟨hlength, hiff, fun m n hm hn he => ?_⟩
  have hmn := (hiff m n hm hn).not.mp (he ▸ List.lt_irrefl _)
  have hnm := (hiff n m hn hm).not.mp (he ▸ List.lt_irrefl _)
  omega

theorem digitChar_lt : ∀ n : Fin 10, ∀ m : Fin n.val, Nat.digitChar m.val < Nat.digitChar n.val := by
  decide

/-- Numbers below ten. -/
theorem digit : Sortable (· < ·) (· < 10) (fun n : Nat => [Nat.digitChar n]) :=
  of_lt (fun _ _ _ _ => rfl) fun m n _ hn h =>
    List.cons_lt_cons_iff.mpr (Or.inl (digitChar_lt ⟨n, hn⟩ ⟨m, h⟩))

/-- The last digit decides after the others. -/
theorem toDigits_lt : ∀ {m n : Nat}, (Nat.toDigits 10 m).length = (Nat.toDigits 10 n).length →
    m < n → Nat.toDigits 10 m < Nat.toDigits 10 n := by
  intro m
  induction m using Nat.strong_induction_on with
  | _ m ih =>
    intro n hlength hlt
    by_cases hn : n < 10
    · rw [Nat.toDigits_of_lt_base hn, Nat.toDigits_of_lt_base (Nat.lt_trans hlt hn)]
      exact (digit.lt_iff m n (Nat.lt_trans hlt hn) hn).mpr hlt
    have hn := Nat.not_lt.mp hn
    have hm : 10 ≤ m := by
      by_contra hm
      rw [Nat.toDigits_of_lt_base (Nat.not_le.mp hm), Nat.toDigits_of_base_le (by decide) hn,
        List.length_append] at hlength
      have hpos := Nat.length_toDigits_pos (b := 10) (n := n / 10)
      rw [List.length_singleton, List.length_singleton] at hlength
      omega
    rw [Nat.toDigits_of_base_le (by decide) hm, Nat.toDigits_of_base_le (by decide) hn] at hlength ⊢
    have hinit : (Nat.toDigits 10 (m / 10)).length = (Nat.toDigits 10 (n / 10)).length := by
      simpa using hlength
    rw [append_lt_append_iff hinit]
    rcases Nat.lt_or_eq_of_le (Nat.div_le_div_right (Nat.le_of_lt hlt) : m / 10 ≤ n / 10) with
      hdiv | hdiv
    · exact Or.inl (ih (m / 10) (by omega) hinit hdiv)
    · have hmod : ∀ k, k % 10 < 10 := fun k => Nat.mod_lt k (by decide)
      exact Or.inr ⟨by rw [hdiv], (digit.lt_iff _ _ (hmod m) (hmod n)).mpr (by omega)⟩

/-- Numbers below a hundred, in two digits. -/
theorem twoDigits :
    Sortable (· < ·) (· < 100) (fun n : Nat => [Nat.digitChar (n / 10), Nat.digitChar (n % 10)]) := by
  refine of_lt (fun _ _ _ _ => rfl) fun m n _ hn h => ?_
  have hpair := digit.pair digit []
  refine (hpair.lt_iff (m / 10, m % 10) (n / 10, n % 10) (by dsimp only; omega)
    (by dsimp only; omega)).mpr ?_
  rw [Prod.lex_def]
  dsimp only
  omega

/-- Numbers of `k` digits. -/
theorem decimal (k : Nat) :
    Sortable (· < ·) (fun n => (Nat.toDigits 10 n).length = k) (Nat.toDigits 10) :=
  of_lt (fun _ _ hm hn => hm.trans hn.symm) fun _ _ hm hn => toDigits_lt (hm.trans hn.symm)

end Sortable
