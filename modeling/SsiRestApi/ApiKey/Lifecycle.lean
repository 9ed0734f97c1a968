import SsiRestApi.ApiKey.Runs

/-!
# The life of a key

Under exact hashing and pairwise distinct random texts, in every run that leaves
the two key columns to `_generate_new_key`, a record's hash is that of its most
recent raw key, and no two records ever had the same raw key.

    _authenticate(raw) = r ↔ raw is the latest raw key of r, and r exists, is
                             active and unexpired             (key_lifecycle)
-/

namespace SsiRest.ApiKey

open Py Tx

/-- The values name neither `key_index` nor `key_hash`, the read-only columns. -/
def KeyVals.leavesKeyColumns (vals : KeyVals) : Bool :=
  vals.keyIndex.isNone && vals.keyHash.isNone

/-- The step sets the key columns, if at all, by generating a key. -/
def Step.leavesKeyColumns : Step → Bool
  | .request (.create _ vals) => vals.leavesKeyColumns
  | .request (.copy _ _ default) => default.leavesKeyColumns
  | .request (.write _ _ vals) => vals.leavesKeyColumns
  | _ => true

/-- The key columns are those of the latest raw key, or empty. -/
def Holds (P : Platform) (k : Key) : Option Generation → Prop
  | none => k.keyHash = none
  | some g => ∃ i, g.raw = rawKey P i ∧ k.keyIndex = some (slice g.raw keyIndexSize) ∧
      k.keyHash = some (P.crypt.hash i g.raw)

/-- The rows and the raw keys handed out, with every random number from `d` and record id
from `n` on unused. -/
structure Tracked (P : Platform) (d n : Nat) (rows : List (Row Key))
    (generated : List Generation) : Prop where
  numbered : Numbered n rows
  known : ∀ g ∈ generated, g.id < n ∧ ∃ i, i < d ∧ g.raw = rawKey P i
  distinct : generated.Pairwise fun g g' => g.raw ≠ g'.raw
  holds : ∀ r ∈ rows, Holds P r.val (latest generated r.id)

variable {P : Platform} {d n : Nat} {rows : List (Row Key)} {generated : List Generation}

theorem rawKey_ne (P : Platform) (i : Nat) : rawKey P i ≠ "" := P.rawValue_ne (by decide) i

theorem rawKey_inj (hP : P.Exact) {i j : Nat} (h : rawKey P i = rawKey P j) : i = j :=
  hP.rawValue_inj h

/-! ## What each operation keeps -/

theorem Tracked.mono {d' n' : Nat} (h : Tracked P d n rows generated) (hd : d ≤ d')
    (hn : n ≤ n') : Tracked P d' n' rows generated where
  numbered := h.numbered.mono hn
  known g hg := by
    obtain ⟨hlt, i, hi, he⟩ := h.known g hg
    exact ⟨Nat.lt_of_lt_of_le hlt hn, i, Nat.lt_of_lt_of_le hi hd, he⟩
  distinct := h.distinct
  holds := h.holds

/-- No raw key was handed out for a record that is only now created. -/
theorem Tracked.latest_new (h : Tracked P d n rows generated) {id : Nat} (hid : n ≤ id) :
    latest generated id = none := by
  cases hl : latest generated id with
  | none => rfl
  | some g =>
    obtain ⟨hg, rfl⟩ := latest_some hl
    exact absurd (h.known g hg).1 (Nat.not_lt.mpr hid)

theorem Tracked.ins (h : Tracked P d n rows generated) {id : Nat} (hid : n ≤ id) {val : Key}
    (hval : val.keyHash = none) : Tracked P d (id + 1) (⟨id, val⟩ :: rows) generated where
  numbered := h.numbered.ins hid val
  known := (h.mono (Nat.le_refl d) (Nat.le_succ_of_le hid)).known
  distinct := h.distinct
  holds := by
    refine List.forall_mem_cons.mpr ⟨?_, h.holds⟩
    rw [h.latest_new hid]
    exact hval

theorem Tracked.upd (h : Tracked P d n rows generated) (id : Nat) {vals : KeyVals}
    (hvals : vals.leavesKeyColumns = true) :
    Tracked P d n ((RowOp.upd id vals).apply rows) generated where
  numbered := h.numbered.change (.upd id _) rfl
  known := h.known
  distinct := h.distinct
  holds r hr := by
    simp only [KeyVals.leavesKeyColumns, Bool.and_eq_true, Option.isNone_iff_eq_none] at hvals
    obtain ⟨r', hr', rfl⟩ := List.mem_map.mp hr
    have hold := h.holds r' hr'
    split
    · dsimp only
      cases hl : latest generated r'.id with
      | none => simpa [Holds, hl, hvals.2] using hold
      | some g => simpa [Holds, hl, hvals.1, hvals.2] using hold
    · exact hold

theorem Tracked.del (h : Tracked P d n rows generated) (id : Nat) :
    Tracked P d n ((RowOp.del (υ := KeyVals) id).apply rows) generated where
  numbered := h.numbered.change (.del id) rfl
  known := h.known
  distinct := h.distinct
  holds r hr := h.holds r (List.mem_filter.mp hr).1

/-- A generated key replaces the one before, and is unlike any before. -/
theorem Tracked.generate (hP : P.Exact) (h : Tracked P d n rows generated) {id i : Nat}
    (hid : ∃ r ∈ rows, r.id = id) (hi : d ≤ i) (u : User) :
    Tracked P (i + 1) n ((RowOp.upd id (generatedVals P i)).apply rows)
      (⟨id, u, rawKey P i⟩ :: generated) where
  numbered := h.numbered.change (.upd id _) rfl
  known := by
    obtain ⟨r, hr, rfl⟩ := hid
    exact List.forall_mem_cons.mpr ⟨⟨h.numbered.known r hr, i, Nat.lt_succ_self i, rfl⟩,
      (h.mono (Nat.le_succ_of_le hi) (Nat.le_refl n)).known⟩
  distinct := by
    refine List.pairwise_cons.mpr ⟨fun g hg he => ?_, h.distinct⟩
    obtain ⟨-, j, hj, hraw⟩ := h.known g hg
    have := rawKey_inj hP (he.trans hraw)
    omega
  holds r hr := by
    obtain ⟨r', hr', rfl⟩ := List.mem_map.mp hr
    split
    · next he =>
      subst he
      dsimp only
      rw [latest_cons_self ⟨r'.id, u, rawKey P i⟩]
      exact ⟨i, rfl, rfl, rfl⟩
    · next hne =>
      rw [latest_cons_of_ne fun he => hne he.symm]
      exact h.holds r' hr'

/-! ## Every step, every run -/

theorem Tracked.effect (hP : P.Exact) {e f : Nat} {q : Request} {reply : Reply}
    {log : List (RowOp Key KeyVals)} (h : Tracked P d n rows generated)
    (heff : Effect P rows d n e f q reply log)
    (hq : (Step.request q).leavesKeyColumns = true) :
    ∃ d' n', d' ≤ max d e ∧ n' ≤ max n f ∧
      Tracked P d' n' (applyOps log rows) ((generation q (.ok reply)).toList ++ generated) := by
  have of_change : ∀ {log : List (RowOp Key KeyVals)} {gen : Option Generation}, gen = none →
      Tracked P d n (applyOps log rows) generated →
      ∃ d' n', d' ≤ max d e ∧ n' ≤ max n f ∧
        Tracked P d' n' (applyOps log rows) (gen.toList ++ generated) := by
    rintro log _ rfl htracked
    exact ⟨d, n, Nat.le_max_left _ _, Nat.le_max_left _ _, htracked⟩
  cases heff with
  | @create env vals val id hval hid hf =>
    obtain ⟨profileId, -, rfl⟩ := Option.map_eq_some_iff.mp hval
    simp only [Step.leavesKeyColumns, KeyVals.leavesKeyColumns, Bool.and_eq_true,
      Option.isNone_iff_eq_none] at hq
    exact ⟨d, id + 1, Nat.le_max_left _ _, by omega, h.ins hid (by simp [hq.2, blank])⟩
  | @copy env source default id hsource hid hf =>
    simp only [Step.leavesKeyColumns, KeyVals.leavesKeyColumns, Bool.and_eq_true,
      Option.isNone_iff_eq_none] at hq
    exact ⟨d, id + 1, Nat.le_max_left _ _, by omega, h.ins hid (by simp [hq.2, copyData])⟩
  | write hgranted =>
    refine of_change rfl (applyOps_induction (I := fun rows => Tracked P d n rows generated)
      (fun op hop rows hrows => ?_) h)
    obtain ⟨id, -, rfl⟩ := List.mem_map.mp hop
    exact hrows.upd id hq
  | unlink hgranted =>
    refine of_change rfl (applyOps_induction (I := fun rows => Tracked P d n rows generated)
      (fun op hop rows hrows => ?_) h)
    obtain ⟨id, -, rfl⟩ := List.mem_map.mp hop
    exact hrows.del id
  | @generateNewKey env id i hgranted hi he =>
    exact ⟨i + 1, n, by omega, Nat.le_max_left _ _,
      h.generate hP (hgranted.found id List.mem_cons_self) hi env.user⟩

theorem tracked_next (hP : P.Exact) {s : State} {a : Step}
    (h : Tracked P s.db.drawn s.db.nextId s.db.rows s.generated)
    (ha : a.leavesKeyColumns = true) :
    Tracked P ((keys P).next s a).db.drawn ((keys P).next s a).db.nextId
      ((keys P).next s a).db.rows ((keys P).next s a).generated := by
  obtain ⟨hd, hn⟩ := next_counters P s a
  cases a with
  | tick now => exact h
  | request q =>
    rcases request_effect P s q with
      ⟨hrows, hgen⟩ | ⟨reply, log, e, f, -, heff, he, hf, hrows, hgen⟩
    · rw [hrows, hgen]
      exact h.mono hd hn
    · rw [hrows, hgen]
      obtain ⟨d', n', hd', hn', htracked⟩ := h.effect hP heff ha
      exact htracked.mono (by omega) (by omega)

theorem tracked_run (hP : P.Exact) (now : Int) (as : List Step)
    (has : ∀ a ∈ as, a.leavesKeyColumns = true) :
    Tracked P ((keys P).exec (initial now) as).db.drawn
      ((keys P).exec (initial now) as).db.nextId ((keys P).exec (initial now) as).db.rows
      ((keys P).exec (initial now) as).generated := by
  refine (keys P).invariant_of_every
    (I := fun s => Tracked P s.db.drawn s.db.nextId s.db.rows s.generated)
    (C := fun _ a => a.leavesKeyColumns = true) (fun _ _ h ha => tracked_next hP h ha)
    ⟨⟨List.Pairwise.nil, fun r hr => (by cases hr)⟩, fun g hg => (by cases hg),
      List.Pairwise.nil, fun r hr => (by cases hr)⟩ as ?_
  exact (keys P).every_of_forall has

/-! ## Authentication -/

theorem Holds.hashed {k : Key} {g? : Option Generation} (h : Holds P k g?) :
    CryptContext.Hashed P.crypt k.keyHash (g?.map (·.raw)) := by
  cases g? with
  | none => exact h
  | some g =>
    obtain ⟨i, -, -, hhash⟩ := h
    exact ⟨i, hhash⟩

theorem unexpired_iff {k : Key} {now : Int} :
    k.unexpired now = true ↔ ∀ e, k.expirationDate = some e → now < e := by
  simp [Key.unexpired, Option.all_eq_true]

/-- A raw key was handed out once. -/
theorem Tracked.eq_of_raw (h : Tracked P d n rows generated) {g g' : Generation}
    (hg : g ∈ generated) (hg' : g' ∈ generated) (hraw : g.raw = g'.raw) : g = g' := by
  have : Std.Symm fun g g' : Generation => g.raw ≠ g'.raw := ⟨fun _ _ hne => hne.symm⟩
  by_contra hne
  exact h.distinct.forall hg hg' hne hraw

/-- The loop over the candidates is a search for the one whose latest raw key is `raw`. -/
theorem Tracked.authenticate_eq (hP : P.Exact) (h : Tracked P d n rows generated) {raw : String}
    (hraw : raw ≠ "") (now : Int) :
    authenticate P rows now raw = .ok ((rows.filter fun r => candidate now raw r.val).find?
      fun r => (latest generated r.id).map (·.raw) = some raw) := by
  unfold authenticate
  rw [if_neg hraw]
  exact hP.crypt.firstMatch_eq (fun r : Row Key => (latest generated r.id).map (·.raw))
    fun r hr => (h.holds r (List.mem_filter.mp hr).1).hashed

/-- A record can be found by its latest raw key. -/
theorem Tracked.candidate_of_latest (h : Tracked P d n rows generated) {now : Int} {r : Row Key}
    {g : Generation} (hr : r ∈ rows) (hg : latest generated r.id = some g)
    (hactive : r.val.active = true) (hexp : r.val.unexpired now = true) :
    candidate now g.raw r.val = true := by
  have hold := h.holds r hr
  rw [hg] at hold
  obtain ⟨_, -, hindex, -⟩ := hold
  simp [candidate, hindex, hactive, hexp]

theorem Tracked.authenticate_iff (hP : P.Exact) (h : Tracked P d n rows generated) (now : Int)
    (raw : String) :
    ∃ found, authenticate P rows now raw = .ok found ∧
      ∀ r, found = some r ↔ r ∈ rows ∧ (∃ g, latest generated r.id = some g ∧ g.raw = raw) ∧
        r.val.active = true ∧ r.val.unexpired now = true := by
  by_cases hraw : raw = ""
  · subst hraw
    refine ⟨none, by simp [authenticate], fun r => ⟨fun he => (by cases he), ?_⟩⟩
    rintro ⟨-, ⟨g, hg, he⟩, -⟩
    obtain ⟨-, i, -, hi⟩ := h.known g (latest_some hg).1
    exact absurd (hi.symm.trans he) (rawKey_ne P i)
  · refine ⟨_, h.authenticate_eq hP hraw now, fun r => ⟨fun hfind => ?_, ?_⟩⟩
    · obtain ⟨hr, hc⟩ := List.mem_filter.mp (List.mem_of_find?_eq_some hfind)
      have hg := List.find?_some hfind
      simp only [decide_eq_true_eq, Option.map_eq_some_iff] at hg
      simp only [candidate, Bool.and_eq_true] at hc
      exact ⟨hr, hg, hc.1.2, hc.2⟩
    · rintro ⟨hr, ⟨g, hg, rfl⟩, hactive, hexp⟩
      have hmem : r ∈ rows.filter fun r => candidate now g.raw r.val :=
        List.mem_filter.mpr ⟨hr, h.candidate_of_latest hr hg hactive hexp⟩
      cases hfind : (rows.filter fun r => candidate now g.raw r.val).find?
          fun r => (latest generated r.id).map (·.raw) = some g.raw with
      | none => exact absurd (by simp [hg]) (List.find?_eq_none.mp hfind r hmem)
      | some r' =>
        -- both records have the raw key, which was handed out for one record only
        have hr' := (List.mem_filter.mp (List.mem_of_find?_eq_some hfind)).1
        have hg' := List.find?_some hfind
        simp only [decide_eq_true_eq, Option.map_eq_some_iff] at hg'
        obtain ⟨g', hg', he⟩ := hg'
        obtain ⟨hm, hid⟩ := latest_some hg
        obtain ⟨hm', hid'⟩ := latest_some hg'
        obtain rfl := h.eq_of_raw hm' hm he
        exact congrArg some (h.numbered.eq_of_id hr' hr (hid'.symm.trans hid))

/-- **The life of a key.**  In every run of key operations and clock changes, `_authenticate`
never fails and returns a record exactly when the text is the record's most recent raw key
and the record exists, is active and is unexpired; a raw key that was replaced finds nothing. -/
theorem key_lifecycle {P : Platform} (hP : P.Exact) (now : Int) (as : List Step)
    (has : ∀ a ∈ as, a.leavesKeyColumns = true) (raw : String) :
    let s := (keys P).exec (initial now) as
    (∃ found, s.authenticate P raw = .ok found ∧
      ∀ r, found = some r ↔ r ∈ s.db.rows ∧ (∃ g, s.latest r.id = some g ∧ g.raw = raw) ∧
        r.val.active = true ∧ ∀ e, r.val.expirationDate = some e → s.db.now < e) ∧
    ∀ g ∈ s.generated, g.raw = raw → s.latest g.id ≠ some g →
      s.authenticate P raw = .ok none := by
  intro s
  have htracked := tracked_run hP now as has
  obtain ⟨found, hfound, hiff⟩ := htracked.authenticate_iff hP s.db.now raw
  refine ⟨⟨found, hfound, fun r => ?_⟩, fun g hg hraw hlatest => ?_⟩
  · rw [hiff r, unexpired_iff]
    exact Iff.rfl
  · cases found with
    | none => exact hfound
    | some r =>
      obtain ⟨-, ⟨g', hg', he⟩, -⟩ := (hiff r).mp rfl
      obtain ⟨hm, hid⟩ := latest_some hg'
      obtain rfl := htracked.eq_of_raw hm hg (he.trans hraw.symm)
      exact absurd (hid ▸ hg') hlatest

/-- Of two keys with one index, the one generated again is found by its new raw key, past the
other, and not by its old one. -/
theorem key_lifecycle_twoKeys :
    let s := (keys Platform.sample).exec (initial 0) twoKeys
    (∃ r, s.authenticate Platform.sample (rawKey Platform.sample 2) = .ok (some r) ∧ r.id = 0) ∧
      s.authenticate Platform.sample (rawKey Platform.sample 0) = .ok none := by
  intro s
  have h := key_lifecycle Platform.sample_exact 0 twoKeys (by decide)
  refine ⟨?_, (h (rawKey Platform.sample 0)).2 ⟨0, employee, rawKey Platform.sample 0⟩ (by decide)
    rfl (by decide)⟩
  obtain ⟨⟨found, hfound, hiff⟩, -⟩ := h (rawKey Platform.sample 2)
  have hr : (⟨0, update (generatedVals Platform.sample 2) (blank 7 1)⟩ : Row Key) ∈ s.db.rows := by
    decide
  obtain rfl := (hiff _).mpr ⟨hr, ⟨⟨0, employee, rawKey Platform.sample 2⟩, by decide, rfl⟩, rfl,
    fun e he => (by cases he)⟩
  exact ⟨_, hfound, rfl⟩

end SsiRest.ApiKey
