import Mathlib.Logic.Function.Basic
import SsiRestApi.Lib.Machine
import SsiRestApi.Lib.Tx

/-!
# Snapshot isolation

Any number of requests run their programs at once, one operation at a time in
any order.  A transaction reads its snapshot and its own writes; it commits only
if no row it updated or deleted was written by a transaction that committed
after the snapshot was taken, and otherwise starts over.

    a committed transaction found every row it touched as the commit finds it
                                                              (Committed.exec)
    no two transactions come by one row id or one random number
                                                              (Committed.came)
    an invariant kept by commits holds in every state         (commit_rule)
-/

namespace Tx

variable {τ κ ρ υ ε α : Type}

/-- A transaction under way: its snapshot, how many commits it has seen, what is
left to run and what it has done. -/
structure Txn (κ ρ υ ε α : Type) where
  ctx : κ
  rows : List (Row ρ)
  since : Nat
  prog : Prog κ ρ υ ε α
  mark : Mark ρ υ

inductive Phase (κ ρ υ ε α : Type) where
  | waiting
  | running (t : Txn κ ρ υ ε α)
  | done (r : Except ε α)

structure Job (τ κ ρ υ ε α : Type) where
  req : τ
  phase : Phase κ ρ υ ε α

/-- A committed transaction: whose request it was, the snapshot it ran on, what it
returned and what it did. -/
structure Commit (τ κ ρ υ α : Type) where
  job : Nat
  req : τ
  ctx : κ
  snapshot : List (Row ρ)
  result : α
  mark : Mark ρ υ

structure Sys (τ κ ρ υ ε α : Type) where
  ctx : κ
  rows : List (Row ρ)
  now : Int
  drawn : Nat
  nextId : Nat
  commits : Nat
  /-- The commit that last wrote the row. -/
  stamp : Nat → Nat
  jobs : Nat → Option (Job τ κ ρ υ ε α)
  history : List (Commit τ κ ρ υ α)

inductive Act (τ κ : Type) where
  | submit (j : Nat) (req : τ)
  | start (j : Nat)
  | advance (j : Nat)
  | commit (j : Nat)
  /-- A statement of the transaction fails to serialize. -/
  | restart (j : Nat)
  | tick (t : Int)
  | edit (c : κ)

/-! ## Steps -/

namespace Sys

/-- The first state: some read-only data and no rows, jobs or commits. -/
def empty (c : κ) (now : Int) : Sys τ κ ρ υ ε α :=
  ⟨c, [], now, 0, 0, 0, fun _ => 0, fun _ => none, []⟩

def setPhase (s : Sys τ κ ρ υ ε α) (j : Nat) (req : τ) (ph : Phase κ ρ υ ε α) :
    Sys τ κ ρ υ ε α :=
  { s with jobs := Function.update s.jobs j (some ⟨req, ph⟩) }

@[simp] theorem setPhase_self (s : Sys τ κ ρ υ ε α) (j : Nat) (req : τ) (ph : Phase κ ρ υ ε α) :
    (s.setPhase j req ph).jobs j = some ⟨req, ph⟩ := Function.update_self ..

/-- A row the transaction updated or deleted was written after its snapshot. -/
def conflict (s : Sys τ κ ρ υ ε α) (t : Txn κ ρ υ ε α) : Bool :=
  t.mark.log.any fun op => !op.isIns && decide (t.since < s.stamp op.target)

variable [Update υ ρ]

/-- One operation of a transaction. -/
def advance (s : Sys τ κ ρ υ ε α) (j : Nat) (req : τ) (t : Txn κ ρ υ ε α) : Sys τ κ ρ υ ε α :=
  match t.prog with
  | .pure _ => s
  | .raise e => s.setPhase j req (.done (.error e))
  | .read k =>
    s.setPhase j req (.running { t with prog := k t.ctx (applyOps t.mark.log t.rows) })
  | .now k => s.setPhase j req (.running { t with prog := k s.now })
  | .draw k =>
    { s with drawn := s.drawn + 1 }.setPhase j req (.running
      { t with
        prog := k s.drawn
        mark := { t.mark with drawn := s.drawn + 1, draws := t.mark.draws ++ [s.drawn] } })
  | .create val k =>
    { s with nextId := s.nextId + 1 }.setPhase j req (.running
      { t with
        prog := k s.nextId
        mark := { t.mark with
          nextId := s.nextId + 1
          log := t.mark.log ++ [RowOp.ins s.nextId val] } })
  | .write id u k =>
    s.setPhase j req (.running
      { t with prog := k, mark := { t.mark with log := t.mark.log ++ [.upd id u] } })
  | .unlink id k =>
    s.setPhase j req (.running
      { t with prog := k, mark := { t.mark with log := t.mark.log ++ [.del id] } })

/-- The end of a transaction: committed, or back to the start on a conflict. -/
def commit (s : Sys τ κ ρ υ ε α) (j : Nat) (req : τ) (t : Txn κ ρ υ ε α) : Sys τ κ ρ υ ε α :=
  match t.prog with
  | .pure a =>
    if s.conflict t then s.setPhase j req .waiting
    else
      { s with
        rows := applyOps t.mark.log s.rows
        commits := s.commits + 1
        stamp := fun id =>
          if t.mark.log.any (fun op => op.target == id) then s.commits + 1 else s.stamp id
        jobs := Function.update s.jobs j (some ⟨req, .done (.ok a)⟩)
        history := s.history ++ [⟨j, req, t.ctx, t.rows, a, t.mark⟩] }
  | _ => s

def step (prog : τ → Prog κ ρ υ ε α) (s : Sys τ κ ρ υ ε α) : Act τ κ → Sys τ κ ρ υ ε α
  | .submit j req =>
    match s.jobs j with
    | none => s.setPhase j req .waiting
    | some _ => s
  | .start j =>
    match s.jobs j with
    | some ⟨req, .waiting⟩ =>
      s.setPhase j req
        (.running ⟨s.ctx, s.rows, s.commits, prog req, .start s.drawn s.nextId⟩)
    | _ => s
  | .advance j =>
    match s.jobs j with
    | some ⟨req, .running t⟩ => s.advance j req t
    | _ => s
  | .commit j =>
    match s.jobs j with
    | some ⟨req, .running t⟩ => s.commit j req t
    | _ => s
  | .restart j =>
    match s.jobs j with
    | some ⟨req, .running _⟩ => s.setPhase j req .waiting
    | _ => s
  | .tick t => { s with now := t }
  | .edit c => { s with ctx := c }

end Sys

/-- The system as a machine: steps have no answer of their own. -/
def isolation [Update υ ρ] (prog : τ → Prog κ ρ υ ε α) :
    Machine (Sys τ κ ρ υ ε α) (Act τ κ) Unit :=
  ⟨fun s a => (s.step prog a, ())⟩

/-! ## What holds in every state -/

/-- What the counters give out, each but once. -/
inductive Serial where
  | row (id : Nat)
  | draw (i : Nat)

/-- A transaction created this row, or drew this random number. -/
def Mark.Holds (m : Mark ρ υ) : Serial → Prop
  | .row id => Inserts m.log id
  | .draw i => i ∈ m.draws

/-- The counters are past it. -/
def Sys.Given (s : Sys τ κ ρ υ ε α) : Serial → Prop
  | .row id => id < s.nextId
  | .draw i => i < s.drawn

/-- The transaction of job `j` holds it and is not committed. -/
def Pending (s : Sys τ κ ρ υ ε α) (j : Nat) (x : Serial) : Prop :=
  ∃ req t, s.jobs j = some ⟨req, .running t⟩ ∧ t.mark.Holds x

/-- It was given out and no open transaction holds it. -/
def Born (s : Sys τ κ ρ υ ε α) (x : Serial) : Prop := s.Given x ∧ ∀ j, ¬ Pending s j x

theorem Sys.Given.mono {s s' : Sys τ κ ρ υ ε α} {x : Serial} (h : s.Given x)
    (hd : s.drawn ≤ s'.drawn) (hn : s.nextId ≤ s'.nextId) : s'.Given x := by
  cases x with
  | row id => exact Nat.lt_of_lt_of_le h hn
  | draw i => exact Nat.lt_of_lt_of_le h hd

variable [Update υ ρ] (prog : τ → Prog κ ρ υ ε α)

/-- What a transaction under way knows of the state. -/
structure TxnInv (s : Sys τ κ ρ υ ε α) (req : τ) (t : Txn κ ρ υ ε α) : Prop where
  since_le : t.since ≤ s.commits
  /-- A row not written since the snapshot is as the snapshot has it. -/
  current : ∀ id, s.stamp id ≤ t.since → rowsWith id s.rows = rowsWith id t.rows
  /-- What is left to run still has every outcome the whole program was promised. -/
  sound : ∃ d n, ∀ Q, Prog.wp t.ctx t.rows (prog req) (.start d n) Q →
    Prog.wp t.ctx t.rows t.prog t.mark Q
  drawn_le : t.mark.drawn ≤ s.drawn
  nextId_le : t.mark.nextId ≤ s.nextId

structure Inv (s : Sys τ κ ρ υ ε α) : Prop where
  txn : ∀ j req t, s.jobs j = some ⟨req, .running t⟩ → TxnInv prog s req t
  stamp_le : ∀ id, s.stamp id ≤ s.commits
  pending_given : ∀ j x, Pending s j x → s.Given x
  pending_inj : ∀ j j' x, Pending s j x → Pending s j' x → j = j'
  born : ∀ r ∈ s.rows, Born s (.row r.id)
  /-- Only a committed request is answered. -/
  done : ∀ j req a, s.jobs j = some ⟨req, .done (.ok a)⟩ →
    ∃ com ∈ s.history, com.job = j ∧ com.req = req ∧ com.result = a

/-- A step that commits nothing. -/
structure Quiet (s s' : Sys τ κ ρ υ ε α) : Prop where
  rows : s'.rows = s.rows
  history : s'.history = s.history

/-- A commit: its log is applied, the rows it touched are as its snapshot has them, and
what it holds is new. -/
structure Committed (s s' : Sys τ κ ρ υ ε α) (com : Commit τ κ ρ υ α) : Prop where
  rows : s'.rows = applyOps com.mark.log s.rows
  history : s'.history = s.history ++ [com]
  exec : ∃ d n, ∀ Q, Prog.wp com.ctx com.snapshot (prog com.req) (.start d n) Q →
    Q (.ok com.result) com.mark
  current : ∀ id, Touches com.mark.log id → rowsWith id s.rows = rowsWith id com.snapshot
  came : ∀ x, com.mark.Holds x → ¬ Born s x ∧ Born s' x
  born : ∀ r ∈ s.rows, Born s (.row r.id)

theorem inv_empty (c : κ) (now : Int) : Inv prog (Sys.empty c now) where
  txn _ _ _ h := by cases h
  stamp_le _ := Nat.le_refl _
  pending_given _ _ h := by obtain ⟨_, _, h, _⟩ := h; cases h
  pending_inj _ _ _ h := by obtain ⟨_, _, h, _⟩ := h; cases h
  born _ h := by cases h
  done _ _ _ h := by cases h

variable {prog}

/-- A step that changes one job and the counters only. -/
structure Local (prog : τ → Prog κ ρ υ ε α) (s s' : Sys τ κ ρ υ ε α) (j : Nat) : Prop where
  rows : s'.rows = s.rows
  history : s'.history = s.history
  commits : s'.commits = s.commits
  stamp : s'.stamp = s.stamp
  drawn : s.drawn ≤ s'.drawn
  nextId : s.nextId ≤ s'.nextId
  others : ∀ i, i ≠ j → s'.jobs i = s.jobs i
  pending : ∀ x, Pending s' j x → Pending s j x ∨ (¬ s.Given x ∧ s'.Given x)
  txn : ∀ req t, s'.jobs j = some ⟨req, .running t⟩ → TxnInv prog s' req t
  done : ∀ req a, s'.jobs j = some ⟨req, .done (.ok a)⟩ → s.jobs j = some ⟨req, .done (.ok a)⟩

theorem TxnInv.mono {s s' : Sys τ κ ρ υ ε α} {req : τ} {t : Txn κ ρ υ ε α}
    (h : TxnInv prog s req t) (hr : s'.rows = s.rows) (hc : s'.commits = s.commits)
    (hs : s'.stamp = s.stamp) (hd : s.drawn ≤ s'.drawn) (hn : s.nextId ≤ s'.nextId) :
    TxnInv prog s' req t where
  since_le := hc ▸ h.since_le
  current := hr ▸ hs ▸ h.current
  sound := h.sound
  drawn_le := Nat.le_trans h.drawn_le hd
  nextId_le := Nat.le_trans h.nextId_le hn

theorem Local.pending_other {s s' : Sys τ κ ρ υ ε α} {j : Nat} (h : Local prog s s' j)
    {i : Nat} {x : Serial} (hi : i ≠ j) : Pending s' i x ↔ Pending s i x := by
  unfold Pending
  rw [h.others i hi]

theorem Local.given {s s' : Sys τ κ ρ υ ε α} {j : Nat} (h : Local prog s s' j) {x : Serial}
    (hx : s.Given x) : s'.Given x := hx.mono h.drawn h.nextId

theorem Local.born {s s' : Sys τ κ ρ υ ε α} {j : Nat} (h : Local prog s s' j) {x : Serial}
    (hb : Born s x) : Born s' x := by
  refine ⟨h.given hb.1, fun i hp => ?_⟩
  by_cases hi : i = j
  · subst hi
    rcases h.pending x hp with hp | ⟨hnot, -⟩
    · exact hb.2 i hp
    · exact hnot hb.1
  · exact hb.2 i ((h.pending_other hi).mp hp)

theorem Local.inv {s s' : Sys τ κ ρ υ ε α} {j : Nat} (h : Local prog s s' j)
    (hs : Inv prog s) : Inv prog s' where
  txn i req t hj := by
    by_cases hi : i = j
    · subst hi
      exact h.txn req t hj
    · rw [h.others i hi] at hj
      exact (hs.txn i req t hj).mono h.rows h.commits h.stamp h.drawn h.nextId
  stamp_le id := by
    rw [h.stamp, h.commits]
    exact hs.stamp_le id
  pending_given i x hp := by
    by_cases hi : i = j
    · subst hi
      rcases h.pending x hp with hp | ⟨-, hgiven⟩
      · exact h.given (hs.pending_given i x hp)
      · exact hgiven
    · exact h.given (hs.pending_given i x ((h.pending_other hi).mp hp))
  pending_inj i i' x hp hp' := by
    -- what one job was just given no other job has
    have key : ∀ k, k ≠ j → Pending s' k x → ¬ Pending s' j x := by
      intro k hk hpk hpj
      rw [h.pending_other hk] at hpk
      rcases h.pending x hpj with hpj | ⟨hnot, -⟩
      · exact hk (hs.pending_inj k j x hpk hpj)
      · exact hnot (hs.pending_given k x hpk)
    by_cases hi : i = j
    · by_cases hi' : i' = j
      · rw [hi, hi']
      · exact absurd (hi ▸ hp) (key i' hi' hp')
    · by_cases hi' : i' = j
      · exact absurd (hi' ▸ hp') (key i hi hp)
      · exact hs.pending_inj i i' x ((h.pending_other hi).mp hp) ((h.pending_other hi').mp hp')
  born r hr := by
    rw [h.rows] at hr
    exact h.born (hs.born r hr)
  done i req a hi := by
    rw [h.history]
    by_cases hij : i = j
    · subst hij
      exact hs.done i req a (h.done req a hi)
    · rw [h.others i hij] at hi
      exact hs.done i req a hi

theorem Local.quiet {s s' : Sys τ κ ρ υ ε α} {j : Nat} (h : Local prog s s' j) : Quiet s s' :=
  ⟨h.rows, h.history⟩

theorem Local.refl {s : Sys τ κ ρ υ ε α} (hs : Inv prog s) (j : Nat) : Local prog s s j :=
  ⟨rfl, rfl, rfl, rfl, Nat.le_refl _, Nat.le_refl _, fun _ _ => rfl, fun _ hp => Or.inl hp,
    fun req t hj => hs.txn j req t hj, fun _ _ h => h⟩

/-- A job that stops running, or has not run yet, holds nothing. -/
theorem local_setPhase {s : Sys τ κ ρ υ ε α} (j : Nat) (req : τ) (ph : Phase κ ρ υ ε α)
    (hph : ∀ t, ph ≠ .running t) (hok : ∀ a, ph ≠ .done (.ok a)) :
    Local prog s (s.setPhase j req ph) j := by
  have hj := s.setPhase_self j req ph
  refine ⟨rfl, rfl, rfl, rfl, Nat.le_refl _, Nat.le_refl _,
    fun i hi => Function.update_of_ne hi _ _, fun x hp => ?_, fun req' t' ht => ?_,
    fun req' a ha => ?_⟩
  · obtain ⟨req', t', ht, -⟩ := hp
    rw [hj] at ht
    cases ht
    exact absurd rfl (hph t')
  · rw [hj] at ht
    cases ht
    exact absurd rfl (hph t')
  · rw [hj] at ha
    cases ha
    exact absurd rfl (hok a)

/-- A job that goes on running, perhaps past a counter. -/
theorem local_running {s : Sys τ κ ρ υ ε α} {j : Nat} {req : τ} {t t' : Txn κ ρ υ ε α}
    (d n : Nat) (hj : s.jobs j = some ⟨req, .running t⟩) (ht : TxnInv prog s req t)
    (hd : s.drawn ≤ d) (hn : s.nextId ≤ n)
    (hctx : t'.ctx = t.ctx) (hrows : t'.rows = t.rows) (hsince : t'.since = t.since)
    (hdrawn : t'.mark.drawn ≤ d) (hnext : t'.mark.nextId ≤ n)
    (hrow : ∀ id, Inserts t'.mark.log id → Inserts t.mark.log id ∨ (s.nextId ≤ id ∧ id < n))
    (hdraw : ∀ i, i ∈ t'.mark.draws → i ∈ t.mark.draws ∨ (s.drawn ≤ i ∧ i < d))
    (hwp : ∀ Q, Prog.wp t.ctx t.rows t.prog t.mark Q → Prog.wp t.ctx t.rows t'.prog t'.mark Q) :
    Local prog s ({ s with drawn := d, nextId := n }.setPhase j req (.running t')) j := by
  have hj' := { s with drawn := d, nextId := n }.setPhase_self j req (.running t')
  refine ⟨rfl, rfl, rfl, rfl, hd, hn, fun i hi => Function.update_of_ne hi _ _,
    fun x hp => ?_, fun req' u hu => ?_, fun req' a ha => ?_⟩
  · obtain ⟨req', u, hu, hholds⟩ := hp
    rw [hj'] at hu
    cases hu
    cases x with
    | row id =>
      exact (hrow id hholds).imp (fun h => ⟨req, t, hj, h⟩) fun h => ⟨Nat.not_lt.mpr h.1, h.2⟩
    | draw i =>
      exact (hdraw i hholds).imp (fun h => ⟨req, t, hj, h⟩) fun h => ⟨Nat.not_lt.mpr h.1, h.2⟩
  · rw [hj'] at hu
    cases hu
    obtain ⟨d0, n0, hs⟩ := ht.sound
    exact ⟨hsince ▸ ht.since_le, by rw [hsince, hrows]; exact ht.current,
      ⟨d0, n0, by rw [hctx, hrows]; exact fun Q hQ => hwp Q (hs Q hQ)⟩, hdrawn, hnext⟩
  · rw [hj'] at ha
    cases ha

omit [Update υ ρ] in
/-- A log extended by an update or deletion creates no further row. -/
theorem inserts_concat {log : List (RowOp ρ υ)} {op : RowOp ρ υ} {id : Nat} :
    Inserts (log ++ [op]) id ↔ Inserts log id ∨ ∃ val, op = .ins id val := by
  unfold Inserts
  simp only [List.mem_append, List.mem_singleton]
  constructor
  · rintro ⟨val, h | rfl⟩
    · exact Or.inl ⟨val, h⟩
    · exact Or.inr ⟨val, rfl⟩
  · rintro (⟨val, h⟩ | ⟨val, rfl⟩)
    · exact ⟨val, Or.inl h⟩
    · exact ⟨val, Or.inr rfl⟩

theorem local_advance {s : Sys τ κ ρ υ ε α} (hs : Inv prog s) {j : Nat} {req : τ}
    {t : Txn κ ρ υ ε α} (hj : s.jobs j = some ⟨req, .running t⟩) :
    Local prog s (s.advance j req t) j := by
  have ht := hs.txn j req t hj
  have hd := ht.drawn_le
  have hn := ht.nextId_le
  obtain ⟨c, rows, since, p, m⟩ := t
  unfold Sys.advance
  cases p with
  | pure a => exact Local.refl hs j
  | raise e => exact local_setPhase j req _ (by simp) (by simp)
  | read k =>
    exact local_running s.drawn s.nextId hj ht (Nat.le_refl _) (Nat.le_refl _) rfl rfl rfl hd hn
      (fun id h => Or.inl h) (fun i h => Or.inl h) (fun Q h => h)
  | now k =>
    exact local_running s.drawn s.nextId hj ht (Nat.le_refl _) (Nat.le_refl _) rfl rfl rfl hd hn
      (fun id h => Or.inl h) (fun i h => Or.inl h) (fun Q h => h s.now)
  | draw k =>
    refine local_running (s.drawn + 1) s.nextId hj ht (Nat.le_succ _) (Nat.le_refl _) rfl rfl rfl
      (Nat.le_refl _) hn (fun id h => Or.inl h) (fun i h => ?_) (fun Q h => h s.drawn hd)
    rcases List.mem_append.mp h with h | h
    · exact Or.inl h
    · obtain rfl := List.mem_singleton.mp h
      exact Or.inr ⟨Nat.le_refl _, Nat.lt_succ_self _⟩
  | create val k =>
    refine local_running s.drawn (s.nextId + 1) hj ht (Nat.le_refl _) (Nat.le_succ _) rfl rfl rfl
      hd (Nat.le_refl _) (fun id h => ?_) (fun i h => Or.inl h) (fun Q h => h s.nextId hn)
    rcases inserts_concat.mp h with h | ⟨val', he⟩
    · exact Or.inl h
    · cases he
      exact Or.inr ⟨Nat.le_refl _, Nat.lt_succ_self _⟩
  | write id u k =>
    refine local_running s.drawn s.nextId hj ht (Nat.le_refl _) (Nat.le_refl _) rfl rfl rfl hd hn
      (fun id h => ?_) (fun i h => Or.inl h) (fun Q h => h)
    rcases inserts_concat.mp h with h | ⟨val', he⟩
    · exact Or.inl h
    · cases he
  | unlink id k =>
    refine local_running s.drawn s.nextId hj ht (Nat.le_refl _) (Nat.le_refl _) rfl rfl rfl hd hn
      (fun id h => ?_) (fun i h => Or.inl h) (fun Q h => h)
    rcases inserts_concat.mp h with h | ⟨val', he⟩
    · exact Or.inl h
    · cases he

/-! ## The commit -/

omit [Update υ ρ] in
theorem not_conflict {s : Sys τ κ ρ υ ε α} {t : Txn κ ρ υ ε α} (h : s.conflict t = false)
    {id : Nat} (hid : Touches t.mark.log id) : s.stamp id ≤ t.since := by
  obtain ⟨op, hop, hins, rfl⟩ := hid
  unfold Sys.conflict at h
  rw [List.any_eq_false] at h
  have := h op hop
  simp only [hins, Bool.not_false, Bool.true_and, decide_eq_true_eq, Nat.not_lt] at this
  exact this

/-- The state after a commit without conflict. -/
theorem commit_eq {s : Sys τ κ ρ υ ε α} {j : Nat} {req : τ} {t : Txn κ ρ υ ε α} {a : α}
    (hp : t.prog = .pure a) (hc : s.conflict t = false) :
    s.commit j req t =
      { s with
        rows := applyOps t.mark.log s.rows
        commits := s.commits + 1
        stamp := fun id =>
          if t.mark.log.any (fun op => op.target == id) then s.commits + 1 else s.stamp id
        jobs := Function.update s.jobs j (some ⟨req, .done (.ok a)⟩)
        history := s.history ++ [⟨j, req, t.ctx, t.rows, a, t.mark⟩] } := by
  unfold Sys.commit
  rw [hp]
  simp [hc]

section Commit

variable {s s' : Sys τ κ ρ υ ε α} {j : Nat} {req : τ} {t : Txn κ ρ υ ε α} {a : α}

/-- Only what the committing job holds stops being pending. -/
theorem pending_commit (hp : t.prog = .pure a) (hc : s.conflict t = false) {i : Nat}
    {x : Serial} : Pending (s.commit j req t) i x ↔ i ≠ j ∧ Pending s i x := by
  unfold Pending
  rw [commit_eq hp hc]
  by_cases hi : i = j
  · subst hi
    simp
  · simp [hi]

theorem given_commit (hp : t.prog = .pure a) (hc : s.conflict t = false) {x : Serial} :
    (s.commit j req t).Given x ↔ s.Given x := by
  rw [commit_eq hp hc]
  cases x <;> exact Iff.rfl

theorem born_commit (hs : Inv prog s) (hj : s.jobs j = some ⟨req, .running t⟩)
    (hp : t.prog = .pure a) (hc : s.conflict t = false) {x : Serial} :
    Born (s.commit j req t) x ↔ Born s x ∨ t.mark.Holds x := by
  unfold Born
  simp only [given_commit hp hc, pending_commit hp hc]
  constructor
  · rintro ⟨hgiven, h⟩
    by_cases hholds : t.mark.Holds x
    · exact Or.inr hholds
    · refine Or.inl ⟨hgiven, fun i hpi => ?_⟩
      by_cases hi : i = j
      · subst hi
        obtain ⟨req', t', ht', h'⟩ := hpi
        rw [hj] at ht'
        cases ht'
        exact hholds h'
      · exact h i ⟨hi, hpi⟩
  · rintro (⟨hgiven, h⟩ | hholds)
    · exact ⟨hgiven, fun i hi => h i hi.2⟩
    · have hpj : Pending s j x := ⟨req, t, hj, hholds⟩
      exact ⟨hs.pending_given j x hpj, fun i hi => hi.1 (hs.pending_inj i j x hi.2 hpj)⟩

theorem inv_commit (hs : Inv prog s) (hj : s.jobs j = some ⟨req, .running t⟩)
    (hp : t.prog = .pure a) (hc : s.conflict t = false) : Inv prog (s.commit j req t) where
  txn i req' t' hi := by
    rw [commit_eq hp hc] at hi ⊢
    have hne : i ≠ j := by
      rintro rfl
      simp at hi
    dsimp only at hi
    rw [Function.update_of_ne hne] at hi
    have ht := hs.txn i req' t' hi
    refine ⟨Nat.le_trans ht.since_le (Nat.le_succ _), fun id hid => ?_, ht.sound, ht.drawn_le,
      ht.nextId_le⟩
    -- the commit is later than the snapshot, so it did not write this row
    by_cases hany : t.mark.log.any (fun op => op.target == id) = true
    · have hle := ht.since_le
      simp only [hany, if_true] at hid
      omega
    · simp only [hany, Bool.false_eq_true, if_false] at hid
      simp only [List.any_eq_true, beq_iff_eq, not_exists, not_and] at hany
      exact (rowsWith_applyOps hany).trans (ht.current id hid)
  stamp_le id := by
    rw [commit_eq hp hc]
    dsimp only
    split
    · exact Nat.le_refl _
    · exact Nat.le_trans (hs.stamp_le id) (Nat.le_succ _)
  pending_given i x hpi :=
    (given_commit hp hc).mpr (hs.pending_given i x ((pending_commit hp hc).mp hpi).2)
  pending_inj i i' x hpi hpi' :=
    hs.pending_inj i i' x ((pending_commit hp hc).mp hpi).2 ((pending_commit hp hc).mp hpi').2
  born r hr := by
    rw [born_commit hs hj hp hc]
    have hr' : r ∈ applyOps t.mark.log s.rows := by rwa [commit_eq hp hc] at hr
    rcases mem_applyOps hr' with ⟨r', hr', he⟩ | hins
    · exact Or.inl (he ▸ hs.born r' hr')
    · exact Or.inr hins
  done i req' b hi := by
    rw [commit_eq hp hc] at hi ⊢
    dsimp only at hi ⊢
    by_cases hij : i = j
    · subst hij
      rw [Function.update_self] at hi
      cases hi
      exact ⟨_, List.mem_append_right _ List.mem_cons_self, rfl, rfl, rfl⟩
    · rw [Function.update_of_ne hij] at hi
      obtain ⟨com, hcom, h⟩ := hs.done i req' b hi
      exact ⟨com, List.mem_append_left _ hcom, h⟩

theorem committed_commit (hs : Inv prog s) (hj : s.jobs j = some ⟨req, .running t⟩)
    (hp : t.prog = .pure a) (hc : s.conflict t = false) :
    Committed prog s (s.commit j req t) ⟨j, req, t.ctx, t.rows, a, t.mark⟩ where
  rows := by rw [commit_eq hp hc]
  history := by rw [commit_eq hp hc]
  exec := by
    obtain ⟨d, n, hsound⟩ := (hs.txn j req t hj).sound
    refine ⟨d, n, fun Q hQ => ?_⟩
    have := hsound Q hQ
    rw [hp] at this
    exact this
  current id hid := (hs.txn j req t hj).current id (not_conflict hc hid)
  came x hx := by
    refine ⟨fun hb => hb.2 j ⟨req, t, hj, hx⟩, ?_⟩
    rw [born_commit hs hj hp hc]
    exact Or.inr hx
  born := hs.born

end Commit

/-! ## Every step, every run -/

/-- A transaction that begins has a fresh snapshot and holds nothing. -/
theorem local_start {s : Sys τ κ ρ υ ε α} (j : Nat) (req : τ) :
    Local prog s (s.setPhase j req
      (.running ⟨s.ctx, s.rows, s.commits, prog req, .start s.drawn s.nextId⟩)) j := by
  refine ⟨rfl, rfl, rfl, rfl, Nat.le_refl _, Nat.le_refl _,
    fun i hi => Function.update_of_ne hi _ _, fun x hp => ?_, fun req' t ht => ?_,
    fun req' a ha => ?_⟩
  · obtain ⟨req', t, ht, hholds⟩ := hp
    rw [Sys.setPhase_self] at ht
    cases ht
    cases x with
    | row id =>
      obtain ⟨val, hv⟩ := hholds
      cases hv
    | draw i => cases hholds
  · rw [Sys.setPhase_self] at ht
    cases ht
    exact ⟨Nat.le_refl _, fun _ _ => rfl, ⟨s.drawn, s.nextId, fun Q h => h⟩,
      Nat.le_refl _, Nat.le_refl _⟩
  · rw [Sys.setPhase_self] at ha
    cases ha

/-- The clock and the read-only data are no part of the invariant. -/
theorem Inv.outside {s : Sys τ κ ρ υ ε α} (hs : Inv prog s) (c : κ) (now : Int) :
    Inv prog { s with ctx := c, now := now } where
  txn j req u hj := (hs.txn j req u hj).mono rfl rfl rfl (Nat.le_refl _) (Nat.le_refl _)
  stamp_le := hs.stamp_le
  pending_given := hs.pending_given
  pending_inj := hs.pending_inj
  born := hs.born
  done := hs.done

/-- What one step does: it keeps the invariant and all that was already given out, and
either commits nothing or commits one transaction. -/
theorem step_spec {s : Sys τ κ ρ υ ε α} (hs : Inv prog s) (a : Act τ κ) :
    Inv prog (s.step prog a) ∧ (∀ x, Born s x → Born (s.step prog a) x) ∧
      (Quiet s (s.step prog a) ∨ ∃ com, Committed prog s (s.step prog a) com) := by
  have of_local : ∀ {s' : Sys τ κ ρ υ ε α} {j : Nat}, Local prog s s' j →
      Inv prog s' ∧ (∀ x, Born s x → Born s' x) ∧
        (Quiet s s' ∨ ∃ com, Committed prog s s' com) :=
    fun h => ⟨h.inv hs, fun _ => h.born, Or.inl h.quiet⟩
  cases a with
  | submit j req =>
    unfold Sys.step
    dsimp only
    split
    · exact of_local (local_setPhase j req _ (by simp) (by simp))
    · exact of_local (Local.refl hs j)
  | start j =>
    unfold Sys.step
    dsimp only
    split
    · next req _ => exact of_local (local_start j req)
    · exact of_local (Local.refl hs j)
  | advance j =>
    unfold Sys.step
    dsimp only
    split
    · next req t hj => exact of_local (local_advance hs hj)
    · exact of_local (Local.refl hs j)
  | commit j =>
    unfold Sys.step
    dsimp only
    split
    · next req t hj =>
      cases hp : t.prog with
      | pure a =>
        cases hc : s.conflict t with
        | true =>
          have he : s.commit j req t = s.setPhase j req .waiting := by
            unfold Sys.commit
            rw [hp]
            simp [hc]
          rw [he]
          exact of_local (local_setPhase j req _ (by simp) (by simp))
        | false =>
          refine ⟨inv_commit hs hj hp hc, fun x hb => ?_, Or.inr ⟨_, committed_commit hs hj hp hc⟩⟩
          rw [born_commit hs hj hp hc]
          exact Or.inl hb
      | _ =>
        unfold Sys.commit
        rw [hp]
        exact of_local (Local.refl hs j)
    · exact of_local (Local.refl hs j)
  | restart j =>
    unfold Sys.step
    dsimp only
    split
    · exact of_local (local_setPhase j _ _ (by simp) (by simp))
    · exact of_local (Local.refl hs j)
  | tick t =>
    exact ⟨hs.outside s.ctx t, fun x h => h, Or.inl ⟨rfl, rfl⟩⟩
  | edit c =>
    exact ⟨hs.outside c s.now, fun x h => h, Or.inl ⟨rfl, rfl⟩⟩

/-- **The commit rule.**  A property that commits keep, and that no other step can
change, holds in every state of every interleaving. -/
theorem commit_rule {J : Sys τ κ ρ υ ε α → Prop}
    (hquiet : ∀ s s', Quiet s s' → (∀ x, Born s x → Born s' x) → J s → J s')
    (hcommit : ∀ s s' com, Committed prog s s' com → (∀ x, Born s x → Born s' x) → J s → J s')
    {s : Sys τ κ ρ υ ε α} (hs : Inv prog s) (h0 : J s) (as : List (Act τ κ)) :
    Inv prog ((isolation prog).exec s as) ∧ J ((isolation prog).exec s as) := by
  refine (isolation prog).invariant (I := fun s => Inv prog s ∧ J s) ?_ ⟨hs, h0⟩ as
  rintro s a ⟨hs, hJ⟩
  obtain ⟨hinv, hborn, hq | ⟨com, hcom⟩⟩ := step_spec hs a
  · exact ⟨hinv, hquiet _ _ hq hborn hJ⟩
  · exact ⟨hinv, hcommit _ _ com hcom hborn hJ⟩

end Tx
