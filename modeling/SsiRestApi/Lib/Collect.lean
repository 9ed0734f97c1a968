import Mathlib.Data.List.Forall2

/-!
# Collecting from fallible steps

A loop that tries a step on every item, keeps what the steps find and ends at the
first that fails.  When at most one failure is possible, neither the failure nor what
is found depends on the order of the items.

    l ~ l' → run step l and run step l' fail alike, or find the same up to order
                                                                  (run_perm)

The loop that keeps every result is `List.mapM`:

    it ends well ↔ every step does, with these results            (mapM_ok_iff)
-/

namespace Collect

variable {α β ε : Type}

/-- What the steps find, in order, or the first failure. -/
def run (step : α → Except ε (Option β)) : List α → Except ε (List β)
  | [] => .ok []
  | a :: l =>
    match step a with
    | .error e => .error e
    | .ok found =>
      match run step l with
      | .error e => .error e
      | .ok bs => .ok (found.toList ++ bs)

/-- What a step finds, when it does not fail. -/
def found (step : α → Except ε (Option β)) (a : α) : Option β :=
  match step a with
  | .error _ => none
  | .ok b => b

variable {step : α → Except ε (Option β)}

/-- The loop ends well exactly when no step fails, and has then found all there is. -/
theorem run_ok_iff {l : List α} {bs : List β} :
    run step l = .ok bs ↔
      (∀ a ∈ l, ∃ b, step a = .ok b) ∧ bs = l.filterMap (found step) := by
  induction l generalizing bs with
  | nil => simp [run, eq_comm]
  | cons a l ih =>
    cases ha : step a with
    | error e => simp [run, ha]
    | ok b =>
      have hfound : found step a = b := by simp [found, ha]
      cases hl : run step l with
      | error e =>
        have hno : ¬ ∀ a ∈ l, ∃ b, step a = .ok b := by
          intro hall
          have hok := ih.mpr ⟨hall, rfl⟩
          rw [hl] at hok
          cases hok
        refine iff_of_false (fun h => ?_) (fun h => ?_)
        · simp [run, ha, hl] at h
        · exact hno fun c hc => h.1 c (List.mem_cons_of_mem _ hc)
      | ok cs =>
        obtain ⟨hall, rfl⟩ := ih.mp hl
        have hcons : b.toList ++ l.filterMap (found step) =
            (a :: l).filterMap (found step) := by
          cases b <;> simp [hfound]
        simp only [run, ha, hl, hcons, List.forall_mem_cons, Except.ok.injEq]
        constructor
        · rintro rfl
          exact ⟨⟨⟨b, rfl⟩, hall⟩, rfl⟩
        · exact fun h => h.2.symm

/-- Whatever the loop finds, one of its steps did. -/
theorem exists_of_mem_run {l : List α} {bs : List β} (h : run step l = .ok bs) {b : β}
    (hb : b ∈ bs) : ∃ a ∈ l, step a = .ok (some b) := by
  obtain ⟨hall, rfl⟩ := run_ok_iff.mp h
  obtain ⟨a, ha, hfound⟩ := List.mem_filterMap.mp hb
  obtain ⟨b', hstep⟩ := hall a ha
  have he : b' = some b := by simpa [found, hstep] using hfound
  exact ⟨a, ha, by rw [hstep, he]⟩

/-- A failure of the loop is the failure of one of its steps. -/
theorem exists_of_run_error {l : List α} {e : ε} (h : run step l = .error e) :
    ∃ a ∈ l, step a = .error e := by
  induction l with
  | nil => cases h
  | cons a l ih =>
    unfold run at h
    cases ha : step a with
    | error e' =>
      rw [ha] at h
      cases h
      exact ⟨a, List.mem_cons_self, ha⟩
    | ok b =>
      rw [ha] at h
      cases hl : run step l with
      | error e' =>
        rw [hl] at h
        cases h
        obtain ⟨c, hc, he⟩ := ih hl
        exact ⟨c, List.mem_cons_of_mem _ hc, he⟩
      | ok cs =>
        rw [hl] at h
        cases h

/-- The loop fails as soon as one step does. -/
theorem run_error_of_mem {l : List α} {a : α} {e : ε} (ha : a ∈ l)
    (hstep : step a = .error e) : ∃ e', run step l = .error e' := by
  cases h : run step l with
  | error e' => exact ⟨e', rfl⟩
  | ok bs =>
    obtain ⟨b, hb⟩ := (run_ok_iff.mp h).1 a ha
    rw [hstep] at hb
    cases hb

/-- **Order independence.**  Where all steps that fail fail alike, the loop over a permutation
fails with the same failure, or finds the same up to order. -/
theorem run_perm {l l' : List α} (hperm : l.Perm l')
    (halike : ∀ a ∈ l, ∀ b ∈ l, ∀ e e', step a = .error e → step b = .error e' → e = e') :
    (∃ e, run step l = .error e ∧ run step l' = .error e) ∨
      ∃ bs bs', run step l = .ok bs ∧ run step l' = .ok bs' ∧ bs.Perm bs' := by
  cases h : run step l with
  | error e =>
    obtain ⟨a, ha, hstep⟩ := exists_of_run_error h
    obtain ⟨e', h'⟩ := run_error_of_mem (hperm.mem_iff.mp ha) hstep
    obtain ⟨b, hb, hstep'⟩ := exists_of_run_error h'
    obtain rfl := halike a ha b (hperm.mem_iff.mpr hb) e e' hstep hstep'
    exact Or.inl ⟨e, rfl, h'⟩
  | ok bs =>
    obtain ⟨hall, rfl⟩ := run_ok_iff.mp h
    have h' : run step l' = .ok (l'.filterMap (found step)) :=
      run_ok_iff.mpr ⟨fun b hb => hall b (hperm.mem_iff.mpr hb), rfl⟩
    exact Or.inr ⟨_, _, rfl, h', hperm.filterMap _⟩

/-! ## Every result -/

/-- A loop over all items ends well exactly when each of its steps does. -/
theorem mapM_ok_iff {f : α → Except ε β} {l : List α} {bs : List β} :
    l.mapM f = .ok bs ↔ List.Forall₂ (fun a b => f a = .ok b) l bs := by
  induction l generalizing bs with
  | nil => cases bs <;> simp [pure, Except.pure]
  | cons a l ih =>
    rw [List.mapM_cons]
    cases ha : f a with
    | error e => cases bs <;> simp [bind, Except.bind, ha]
    | ok b =>
      cases hl : l.mapM f with
      | error e => cases bs <;> simp [bind, Except.bind, ← ih, hl, ha]
      | ok cs => cases bs <;> simp [bind, Except.bind, pure, Except.pure, ← ih, hl, ha]

/-- A failure of the loop is the failure of one of its steps. -/
theorem exists_of_mapM_error {f : α → Except ε β} {l : List α} {e : ε}
    (h : l.mapM f = .error e) : ∃ a ∈ l, f a = .error e := by
  induction l with
  | nil => cases h
  | cons a l ih =>
    rw [List.mapM_cons] at h
    cases ha : f a with
    | error e' =>
      rw [ha] at h
      cases h
      exact ⟨a, List.mem_cons_self, ha⟩
    | ok b =>
      rw [ha] at h
      cases hl : l.mapM f with
      | error e' =>
        rw [hl] at h
        cases h
        obtain ⟨c, hc, he⟩ := ih hl
        exact ⟨c, List.mem_cons_of_mem _ hc, he⟩
      | ok cs =>
        rw [hl] at h
        cases h

end Collect
