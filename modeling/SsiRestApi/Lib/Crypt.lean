import Mathlib.Tactic.Choose
import SsiRestApi.Lib.Text

/-!
# Salted hashes and the loop that looks one up

A hashing context in the shape of passlib's `CryptContext`: `hash` draws a salt,
`verify` refuses a stored text that is no hash.  A credential is found by going
through candidate rows and verifying each row's hash (`firstMatch`).

    firstMatch finds a ↔ a is accepted and every candidate before it rejected
                                                        (firstMatch_eq_some_iff)
    over rows whose hashes were made by hash it finds the row hashed from raw
                                                        (Exact.firstMatch_eq)
-/

namespace Py

structure CryptContext where
  /-- The hash of a text under a salt. -/
  hash : Nat → String → String
  /-- `none` where the stored text is no hash (a `ValueError`). -/
  verify : String → String → Option Bool

namespace CryptContext

/-- A hash is non-empty text and verifies exactly the text it was made from. -/
structure Exact (C : CryptContext) : Prop where
  hash_ne : ∀ salt raw, C.hash salt raw ≠ ""
  verify_hash : ∀ salt raw raw', C.verify raw (C.hash salt raw') = some (decide (raw = raw'))

/-- The tag a hash starts with. -/
def schemeTag : String := "$pbkdf2-sha512$"

/-- Hashes that carry the text itself behind the tag. -/
def tagged : CryptContext where
  hash _ raw := schemeTag ++ raw
  verify raw h := if startsWith h schemeTag then some (h == schemeTag ++ raw) else none

theorem tagged_exact : tagged.Exact where
  hash_ne salt raw h := by
    have ht : schemeTag.toList ++ raw.toList = [] := by
      rw [← String.toList_append, show schemeTag ++ raw = "" from h, String.toList_empty]
    exact absurd (List.append_eq_nil_iff.mp ht).1 (by decide)
  verify_hash salt raw raw' := by
    unfold tagged
    dsimp only
    rw [if_pos (startsWith_append _ _)]
    congr 1
    rw [Bool.eq_iff_iff, beq_iff_eq, decide_eq_true_iff]
    constructor
    · intro h
      have := congrArg String.toList h
      rw [String.toList_append, String.toList_append] at this
      exact (String.toList_inj.mp (List.append_cancel_left this)).symm
    · rintro rfl
      rfl

/-! ## The candidate loop -/

variable {α ε : Type} (C : CryptContext) (bad : ε) (hashOf : α → Option String) (raw : String)

/-- `candidate.hash and verify(raw, candidate.hash)` for one candidate. -/
def check (a : α) : Except ε Bool :=
  match hashOf a with
  | none => .ok false
  | some h =>
    if h = "" then .ok false
    else match C.verify raw h with
      | none => .error bad
      | some b => .ok b

/-- The first candidate whose hash verifies. -/
def firstMatch : List α → Except ε (Option α)
  | [] => .ok none
  | a :: as =>
    match C.check bad hashOf raw a with
    | .error e => .error e
    | .ok true => .ok (some a)
    | .ok false => firstMatch as

variable {C bad hashOf raw}

/-- The loop stops at the first candidate it accepts. -/
theorem firstMatch_eq_some_iff {as : List α} {a : α} :
    C.firstMatch bad hashOf raw as = .ok (some a) ↔
      ∃ before after, as = before ++ a :: after ∧ C.check bad hashOf raw a = .ok true ∧
        ∀ b ∈ before, C.check bad hashOf raw b = .ok false := by
  induction as with
  | nil => simp [firstMatch]
  | cons b as ih =>
    unfold firstMatch
    constructor
    · intro h
      split at h
      · cases h
      · next hb =>
        cases h
        exact ⟨[], as, rfl, hb, by simp⟩
      · next hb =>
        obtain ⟨before, after, rfl, ha, hall⟩ := ih.mp h
        refine ⟨b :: before, after, rfl, ha, ?_⟩
        rintro c hc
        rcases List.mem_cons.mp hc with rfl | hc
        · exact hb
        · exact hall c hc
    · rintro ⟨before, after, he, ha, hall⟩
      cases before with
      | nil =>
        cases he
        rw [ha]
      | cons c before =>
        cases he
        rw [hall b List.mem_cons_self]
        exact ih.mpr ⟨before, after, rfl, ha, fun d hd => hall d (List.mem_cons_of_mem _ hd)⟩

/-- `a` is the first of the candidates to verify `raw`, past candidates without a hash and
candidates of other texts only. -/
def Selects (C : CryptContext) (hashOf : α → Option String) (raw : String) (as : List α)
    (a : α) : Prop :=
  ∃ before after, as = before ++ a :: after ∧
    (∃ h, hashOf a = some h ∧ h ≠ "" ∧ C.verify raw h = some true) ∧
    ∀ b ∈ before, ∀ h, hashOf b = some h → h ≠ "" → C.verify raw h = some false

theorem check_true_iff {a : α} :
    C.check bad hashOf raw a = .ok true ↔
      ∃ h, hashOf a = some h ∧ h ≠ "" ∧ C.verify raw h = some true := by
  unfold check
  cases hashOf a with
  | none => simp
  | some h =>
    by_cases hne : h = ""
    · simp [hne]
    · cases hv : C.verify raw h with
      | none => simp [hne, hv]
      | some b => simp [hne, hv]

theorem check_false_iff {a : α} :
    C.check bad hashOf raw a = .ok false ↔
      ∀ h, hashOf a = some h → h ≠ "" → C.verify raw h = some false := by
  unfold check
  cases hashOf a with
  | none => simp
  | some h =>
    by_cases hne : h = ""
    · simp [hne]
    · cases hv : C.verify raw h with
      | none => simp [hne, hv]
      | some b => simp [hne, hv]

theorem firstMatch_iff_selects {as : List α} {a : α} :
    C.firstMatch bad hashOf raw as = .ok (some a) ↔ C.Selects hashOf raw as a := by
  simp only [firstMatch_eq_some_iff, check_true_iff, check_false_iff, Selects]

/-- The loop comes to a candidate whose hash `verify` refuses, past candidates without a hash and
candidates of other texts only. -/
def Refuses (C : CryptContext) (hashOf : α → Option String) (raw : String) (as : List α) : Prop :=
  ∃ before a after, as = before ++ a :: after ∧
    (∃ h, hashOf a = some h ∧ h ≠ "" ∧ C.verify raw h = none) ∧
    ∀ b ∈ before, ∀ h, hashOf b = some h → h ≠ "" → C.verify raw h = some false

theorem check_error_iff {a : α} {e : ε} :
    C.check bad hashOf raw a = .error e ↔
      e = bad ∧ ∃ h, hashOf a = some h ∧ h ≠ "" ∧ C.verify raw h = none := by
  unfold check
  cases hashOf a with
  | none => simp
  | some h =>
    by_cases hne : h = ""
    · simp [hne]
    · cases hv : C.verify raw h with
      | none => simp [hne, hv, eq_comm]
      | some b => simp [hne, hv]

theorem firstMatch_error_iff (bad : ε) {as : List α} :
    (∃ e, C.firstMatch bad hashOf raw as = .error e) ↔ C.Refuses hashOf raw as := by
  unfold Refuses
  induction as with
  | nil => simp [firstMatch]
  | cons b as ih =>
    unfold firstMatch
    constructor
    · rintro ⟨e, h⟩
      split at h
      · next hb => exact ⟨[], b, as, rfl, (check_error_iff.mp hb).2, by simp⟩
      · cases h
      · next hb =>
        obtain ⟨before, a, after, rfl, ha, hall⟩ := ih.mp ⟨e, h⟩
        exact ⟨b :: before, a, after, rfl, ha,
          List.forall_mem_cons.mpr ⟨check_false_iff.mp hb, hall⟩⟩
    · rintro ⟨before, a, after, he, ha, hall⟩
      cases before with
      | nil =>
        cases he
        rw [check_error_iff.mpr ⟨rfl, ha⟩]
        exact ⟨bad, rfl⟩
      | cons c before =>
        cases he
        obtain ⟨hb, hall⟩ := List.forall_mem_cons.mp hall
        rw [check_false_iff.mpr hb]
        exact ih.mpr ⟨before, a, after, rfl, ha, hall⟩

/-- The loop fails on a malformed hash only. -/
theorem eq_bad_of_firstMatch {as : List α} {e : ε}
    (h : C.firstMatch bad hashOf raw as = .error e) : e = bad := by
  induction as with
  | nil => cases h
  | cons a as ih =>
    unfold firstMatch at h
    split at h
    · next ha =>
      cases h
      exact (check_error_iff.mp ha).1
    · cases h
    · exact ih h

/-- What the loop finds is a candidate it accepted. -/
theorem mem_of_firstMatch {as : List α} {a : α}
    (h : C.firstMatch bad hashOf raw as = .ok (some a)) :
    a ∈ as ∧ C.check bad hashOf raw a = .ok true := by
  obtain ⟨before, after, rfl, ha, -⟩ := firstMatch_eq_some_iff.mp h
  exact ⟨by simp, ha⟩

/-! ## Rows hashed by the context -/

/-- The stored hash is the hash of `raw?`, or there is neither. -/
def Hashed (C : CryptContext) (stored raw? : Option String) : Prop :=
  match raw? with
  | none => stored = none
  | some raw => ∃ salt, stored = some (C.hash salt raw)

theorem Exact.check_eq (hC : C.Exact) {a : α} {raw? : Option String}
    (h : Hashed C (hashOf a) raw?) :
    C.check bad hashOf raw a = .ok (decide (raw? = some raw)) := by
  cases raw? with
  | none =>
    have h : hashOf a = none := h
    simp [check, h]
  | some raw' =>
    obtain ⟨salt, h⟩ := h
    simp [check, h, hC.hash_ne, hC.verify_hash, eq_comm]

/-- Over hashed rows the loop is a search for the row whose text is `raw`. -/
theorem Exact.firstMatch_eq (hC : C.Exact) (rawOf : α → Option String) {as : List α}
    (h : ∀ a ∈ as, Hashed C (hashOf a) (rawOf a)) :
    C.firstMatch bad hashOf raw as = .ok (as.find? fun a => rawOf a = some raw) := by
  induction as with
  | nil => rfl
  | cons a as ih =>
    rw [firstMatch, hC.check_eq (h a List.mem_cons_self), List.find?_cons]
    by_cases ha : rawOf a = some raw
    · simp [ha]
    · simp only [ha, decide_false]
      exact ih fun b hb => h b (List.mem_cons_of_mem _ hb)

/-- Over hashed rows the loop never meets a text that is no hash. -/
theorem Exact.exists_firstMatch (hC : C.Exact) {as : List α}
    (h : ∀ a ∈ as, ∃ raw?, Hashed C (hashOf a) raw?) :
    ∃ found, C.firstMatch bad hashOf raw as = .ok found := by
  choose! rawOf hraw using h
  exact ⟨_, hC.firstMatch_eq rawOf hraw⟩

/-- Over hashed rows the loop finds a row hashed from `raw` if there is one. -/
theorem Exact.firstMatch_of_mem (hC : C.Exact) {as : List α}
    (h : ∀ a ∈ as, ∃ raw?, Hashed C (hashOf a) raw?) {a : α} (ha : a ∈ as)
    (hraw : Hashed C (hashOf a) (some raw)) :
    ∃ b, C.firstMatch bad hashOf raw as = .ok (some b) := by
  choose! rawOf hrawOf using h
  rw [hC.firstMatch_eq rawOf hrawOf]
  cases hf : as.find? fun a => rawOf a = some raw with
  | some b => exact ⟨b, rfl⟩
  | none =>
    -- the hash of a row determines the text it was made from
    have hne := List.find?_eq_none.mp hf a ha
    have h1 : C.check () hashOf raw a = .ok (decide (rawOf a = some raw)) :=
      hC.check_eq (hrawOf a ha)
    have h2 : C.check () hashOf raw a = .ok (decide (some raw = some raw)) := hC.check_eq hraw
    rw [h1] at h2
    simp at h2 hne
    exact absurd h2 hne

end CryptContext

end Py
