import SsiRestApi.Lib.Machine

/-!
# A view kept in a cache across transactions

A process keeps a view of its database in a cache.  Some changes clear the cache, which is
remembered; a look fills the cache; a transaction that fails puts the database back, and clears
the cache again if it was cleared in between: what filled it since is a view of changes undone.

    cached and plain stores take every run of transactions alike, if every change of the view
    clears the cache                                                 (Memo.simulates)
-/

namespace Memo

/-- A step of a transaction: a change, a look at the view, or a failure. -/
inductive Step (α ε : Type) where
  | change (a : α)
  | look
  | fail (e : ε)

/-- What a transaction shows: the views it looked at, and how it ended. -/
abbrev Shown (V ε : Type) := List V × Except ε Unit

variable {σ α V ε : Type} (apply : α → σ → Except ε σ) (view : σ → V) (clears : α → Bool)

/-! ## Without a cache -/

/-- The steps of a transaction, up to the first failure. -/
def plainSteps : List (Step α ε) → σ → σ × Shown V ε
  | [], s => (s, [], .ok ())
  | .change a :: steps, s =>
    match apply a s with
    | .ok s => plainSteps steps s
    | .error e => (s, [], .error e)
  | .look :: steps, s =>
    let (s', vs, r) := plainSteps steps s
    (s', view s :: vs, r)
  | .fail e :: _, s => (s, [], .error e)

/-- A transaction, undone if it fails. -/
def plain : Machine σ (List (Step α ε)) (Shown V ε) where
  step s steps :=
    let (s', vs, r) := plainSteps apply view steps s
    (match r with
      | .ok _ => s'
      | .error _ => s, vs, r)

/-! ## With a cache -/

/-- The state within a transaction. -/
structure Working (σ V : Type) where
  state : σ
  cache : Option V
  invalidated : Bool

def cachedSteps : List (Step α ε) → Working σ V → Working σ V × Shown V ε
  | [], w => (w, [], .ok ())
  | .change a :: steps, w =>
    match apply a w.state with
    | .ok s => cachedSteps steps (if clears a then ⟨s, none, true⟩ else { w with state := s })
    | .error e => (w, [], .error e)
  | .look :: steps, w =>
    let v := w.cache.getD (view w.state)
    let (w', vs, r) := cachedSteps steps { w with cache := some v }
    (w', v :: vs, r)
  | .fail e :: _, w => (w, [], .error e)

/-- Between transactions: the state and the cache. -/
def cached : Machine (σ × Option V) (List (Step α ε)) (Shown V ε) where
  step c steps :=
    let (w, vs, r) := cachedSteps apply view clears steps ⟨c.1, c.2, false⟩
    (match r with
      | .ok _ => (w.state, w.cache)
      | .error _ => (c.1, if w.invalidated then none else w.cache), vs, r)

/-! ## Both alike -/

/-- What is cached is the view of this state. -/
def Fresh (s : σ) (cache : Option V) : Prop := ∀ v, cache = some v → v = view s

/-- What clears the cache is all that changes the view. -/
def Guards : Prop := ∀ a s s', apply a s = .ok s' → clears a = false → view s' = view s

variable {apply view clears}

/-- The steps of a transaction beside each other.  The cache stays fresh, and as long as it is not
cleared the view is that of the state the transaction began with. -/
theorem cachedSteps_eq (h : Guards apply view clears) {start : σ} (steps : List (Step α ε)) :
    ∀ {w : Working σ V}, Fresh view w.state w.cache →
      (w.invalidated = false → view w.state = view start) →
      ∃ w' : Working σ V,
        cachedSteps apply view clears steps w = (w', (plainSteps apply view steps w.state).2) ∧
        w'.state = (plainSteps apply view steps w.state).1 ∧ Fresh view w'.state w'.cache ∧
        (w'.invalidated = false → view w'.state = view start) := by
  induction steps with
  | nil => exact fun hfresh hstart => ⟨_, rfl, rfl, hfresh, hstart⟩
  | cons step steps ih =>
    intro w hfresh hstart
    cases step with
    | change a =>
      unfold cachedSteps plainSteps
      cases happly : apply a w.state with
      | error e => exact ⟨w, rfl, rfl, hfresh, hstart⟩
      | ok s =>
        dsimp only
        cases hclears : clears a with
        | true => exact ih (w := ⟨s, none, true⟩) (fun v h => by cases h) (fun h => by cases h)
        | false =>
          have hview : view s = view w.state := h a w.state s happly hclears
          refine ih (w := { w with state := s }) (fun v hv => ?_) fun hnot => ?_
          · exact (hfresh v hv).trans hview.symm
          · exact hview.trans (hstart hnot)
    | look =>
      have hview : w.cache.getD (view w.state) = view w.state := by
        cases hcache : w.cache with
        | none => rfl
        | some v => exact hfresh v hcache
      obtain ⟨w', hsteps, hstate, hfresh', hstart'⟩ :=
        ih (w := { w with cache := some (view w.state) }) (fun v h => (Option.some.inj h).symm) hstart
      unfold cachedSteps plainSteps
      rw [hview]
      dsimp only
      rw [hsteps]
      exact ⟨w', rfl, hstate, hfresh', hstart'⟩
    | fail e => exact ⟨w, rfl, rfl, hfresh, hstart⟩

/-- A transaction is taken alike, and leaves a fresh cache. -/
theorem step_eq (hguards : Guards apply view clears) {c : σ × Option V} (h : Fresh view c.1 c.2)
    (steps : List (Step α ε)) :
    ((cached apply view clears).next c steps).1 = (plain apply view).next c.1 steps ∧
      (cached apply view clears).answer c steps = (plain apply view).answer c.1 steps ∧
      Fresh view ((cached apply view clears).next c steps).1
        ((cached apply view clears).next c steps).2 := by
  obtain ⟨w, hsteps, hstate, hfresh, hstart⟩ :=
    cachedSteps_eq hguards (w := ⟨c.1, c.2, false⟩) steps h fun _ => rfl
  unfold Machine.next Machine.answer cached plain
  dsimp only
  rw [hsteps]
  dsimp only at hstate ⊢
  generalize plainSteps apply view steps c.1 = shown at hstate ⊢
  obtain ⟨s, vs, r⟩ := shown
  obtain rfl : w.state = s := hstate
  cases r with
  | ok _ => exact ⟨rfl, rfl, hfresh⟩
  | error e =>
    refine ⟨rfl, rfl, ?_⟩
    dsimp only
    cases hinvalidated : w.invalidated with
    | true => exact fun v hv => by cases hv
    | false => exact fun v hv => (hfresh v hv).trans (hstart hinvalidated)

/-- **The cache does not show.**  A run of transactions from a fresh cache leads to the state that
it leads to without a cache, and the next transaction is answered as it is without one. -/
theorem simulates (hguards : Guards apply view clears) {c : σ × Option V} (h : Fresh view c.1 c.2)
    (run : List (List (Step α ε))) :
    ((cached apply view clears).exec c run).1 = (plain apply view).exec c.1 run ∧
      ∀ steps, (cached apply view clears).answer ((cached apply view clears).exec c run) steps =
        (plain apply view).answer ((plain apply view).exec c.1 run) steps := by
  induction run generalizing c with
  | nil => exact ⟨rfl, fun steps => (step_eq hguards h steps).2.1⟩
  | cons steps run ih =>
    obtain ⟨hstate, -, hfresh⟩ := step_eq hguards h steps
    rw [Machine.exec_cons, Machine.exec_cons, ← hstate]
    exact ih hfresh

end Memo
