import SsiRestApi.ApiKey.Runs

/-!
# Who holds a key

Whom a raw key authenticates as is a field of its record, which the record's owner
may write.  The record rules let a user change a key only while it is theirs, so a
raw key stays with whoever generated it exactly as long as no hash is written by
hand and no record with a hash is given to somebody else.

    owner_of_permits:       a change is made by the owner or an administrator
    holder_controls_run:    a key authenticates as whoever generated it, or an
                            administrator generated it
-/

namespace SsiRest.ApiKey

open Py Tx

/-- The generation was made by user `v` or by an administrator of the module. -/
def HeldBy (g : Generation) (v : Nat) : Prop :=
  g.user.uid = v ∨ Group.apiKeyAdministrator ∈ g.user.groups

/-- Every raw key that authenticates was last generated by the user it authenticates as or by
an administrator; where hashes tell texts apart it is the key that was generated. -/
def HolderControls (P : Platform) (s : State) : Prop :=
  ∀ raw r, s.authenticate P raw = .ok (some r) →
    ∃ g, s.latest r.id = some g ∧ HeldBy g r.val.userId ∧ (P.Exact → g.raw = raw)

/-- A hash that `_authenticate` skips. -/
def NoHash (hash : Option String) : Prop := hash = none ∨ hash = some ""

/-- The values write no hash by hand, except to empty it. -/
def KeyVals.storesNoHash (vals : KeyVals) : Prop := ∀ hash, vals.keyHash = some hash → NoHash hash

/-- No record that keeps its hash is given to a user other than the one who generated its
key, unless an administrator generated it. -/
def KeyVals.keepsHolder (s : State) (ids : List Nat) (vals : KeyVals) : Prop :=
  ∀ v, vals.userId = some v → vals.keyHash = none →
    ∀ r ∈ s.db.rows, r.id ∈ ids → ¬ NoHash r.val.keyHash →
      ∀ g, s.latest r.id = some g → HeldBy g v

/-- A user's operation that writes no hash by hand and keeps every key with its holder. -/
def KeepsHolder (s : State) : Step → Prop
  | .tick _ => True
  | .request (.create env vals) => env.su = false ∧ vals.storesNoHash
  | .request (.copy env _ default) => env.su = false ∧ default.storesNoHash
  | .request (.write env ids vals) => env.su = false ∧ vals.storesNoHash ∧ vals.keepsHolder s ids
  | .request (.unlink env _) => env.su = false
  | .request (.generateNewKey env _) => env.su = false

/-! ## The invariant -/

/-- The record has no hash, or that of its latest raw key, held by its user. -/
def Controlled (P : Platform) (generated : List Generation) (r : Row Key) : Prop :=
  NoHash r.val.keyHash ∨ ∃ g i, latest generated r.id = some g ∧
    r.val.keyHash = some (P.crypt.hash i g.raw) ∧ HeldBy g r.val.userId

variable {P : Platform}

theorem update_idem (vals : KeyVals) (k : Key) :
    update vals (update vals k) = update vals k := by
  have hget : ∀ {α : Type} (o : Option α) (a : α), o.getD (o.getD a) = o.getD a := by
    intro α o a
    cases o <;> rfl
  simp only [Tx.update, hget]

/-- A new record has no hash. -/
theorem noHash_update {vals : KeyVals} (hvals : vals.storesNoHash) {k : Key}
    (hk : k.keyHash = none) : NoHash (update vals k).keyHash := by
  rw [update_keyHash]
  cases hh : vals.keyHash with
  | none => exact Or.inl hk
  | some hash => exact hvals hash hh

/-- A write keeps a record with its holder. -/
theorem Controlled.write {s : State} {ids : List Nat} {vals : KeyVals} (hvals : vals.storesNoHash)
    (hholder : vals.keepsHolder s ids) {r : Row Key} (hr : r ∈ s.db.rows) (hid : r.id ∈ ids)
    (h : Controlled P s.generated r) : Controlled P s.generated ⟨r.id, update vals r.val⟩ := by
  cases hh : vals.keyHash with
  | some hash =>
    refine Or.inl ?_
    dsimp only
    rw [update_keyHash, hh]
    exact hvals hash hh
  | none =>
    have hsame : (update vals r.val).keyHash = r.val.keyHash := by rw [update_keyHash, hh]; rfl
    unfold Controlled
    dsimp only
    rw [hsame]
    by_cases hno : NoHash r.val.keyHash
    · exact Or.inl hno
    · obtain ⟨g, i, hg, hhash, hheld⟩ := h.resolve_left hno
      refine Or.inr ⟨g, i, hg, hhash, ?_⟩
      rw [update_userId]
      cases hv : vals.userId with
      | none => exact hheld
      | some v => exact hholder v hv hh r hr hid hno g hg

/-- Whoever generates a key under the rules owns the record or is an administrator. -/
theorem heldBy_of_granted {env : Env} {id : Nat} {rows : List (Row Key)}
    (h : Orm.Granted keyModel env .write [id] rows) (hsu : env.su = false) {r : Row Key}
    (hr : r ∈ rows) (hid : r.id = id) (raw : String) :
    HeldBy ⟨id, env.user, raw⟩ r.val.userId := by
  rcases owner_of_permits (h.permits hsu hr (by simp [hid])) with ho | ha
  · exact Or.inl ho.symm
  · exact Or.inr ha

theorem Controlled.effect {s : State} {d n e f : Nat} {q : Request} {reply : Reply}
    {log : List (RowOp Key KeyVals)} (h : ∀ r ∈ s.db.rows, Controlled P s.generated r)
    (heff : Effect P s.db.rows d n e f q reply log) (hq : KeepsHolder s (.request q)) :
    ∀ r ∈ applyOps log s.db.rows,
      Controlled P ((generation q (.ok reply)).toList ++ s.generated) r := by
  intro r hr
  cases heff with
  | create hval _ _ =>
    obtain ⟨profileId, -, rfl⟩ := Option.map_eq_some_iff.mp hval
    rcases List.mem_cons.mp hr with rfl | hr
    · exact Or.inl (noHash_update hq.2 rfl)
    · exact h r hr
  | copy hsource _ _ =>
    rcases List.mem_cons.mp hr with rfl | hr
    · exact Or.inl (noHash_update hq.2 rfl)
    · exact h r hr
  | write hgranted =>
    obtain ⟨hsu, hvals, hholder⟩ := hq
    obtain ⟨r', hr', he, hval⟩ := mem_applyOps_upd (update_idem _) hr
    obtain ⟨id, val⟩ := r
    obtain rfl : r'.id = id := he
    rcases hval with rfl | ⟨hid, rfl⟩
    · exact h r' hr'
    · exact (h r' hr').write hvals hholder hr' hid
  | unlink _ =>
    exact h r (mem_of_applyOps_del hr)
  | @generateNewKey env id i hgranted _ _ =>
    obtain ⟨r', hr', rfl⟩ := List.mem_map.mp hr
    split
    · next he =>
      subst he
      exact Or.inr ⟨⟨r'.id, env.user, rawKey P i⟩, i, latest_cons_self _ _, rfl,
        heldBy_of_granted hgranted hq hr' rfl _⟩
    · next hne =>
      unfold Controlled
      have hl : latest (⟨id, env.user, rawKey P i⟩ :: s.generated) r'.id =
          latest s.generated r'.id := latest_cons_of_ne (fun he => hne he.symm) s.generated
      rw [show (generation (.generateNewKey env id) (.ok (.rawKey (rawKey P i)))).toList ++
        s.generated = ⟨id, env.user, rawKey P i⟩ :: s.generated from rfl, hl]
      exact h r' hr'

theorem controlled_next {s : State} {a : Step} (h : ∀ r ∈ s.db.rows, Controlled P s.generated r)
    (ha : KeepsHolder s a) :
    ∀ r ∈ ((keys P).next s a).db.rows, Controlled P ((keys P).next s a).generated r := by
  cases a with
  | tick now => exact h
  | request q =>
    rcases request_effect P s q with
      ⟨hrows, hgen⟩ | ⟨reply, log, e, f, -, heff, -, -, hrows, hgen⟩
    · rw [hrows, hgen]
      exact h
    · rw [hrows, hgen]
      exact Controlled.effect h heff ha

/-- What authenticates in a controlled table was generated for its user. -/
theorem holderControls_of_controlled {s : State}
    (h : ∀ r ∈ s.db.rows, Controlled P s.generated r) : HolderControls P s := by
  intro raw r hr
  obtain ⟨hmem, -, -, hash, hhash, hne, hv⟩ := authenticate_some hr
  rcases h r hmem with hno | ⟨g, i, hg, hgen, hheld⟩
  · rw [hhash] at hno
    rcases hno with hno | hno
    · cases hno
    · exact absurd (Option.some.inj hno) hne
  · refine ⟨g, hg, hheld, fun hP => ?_⟩
    rw [hhash, Option.some.injEq] at hgen
    rw [hgen, hP.crypt.verify_hash, Option.some.injEq, decide_eq_true_iff] at hv
    exact hv.symm

/-- **A key stays with its holder.**  In every run of users' operations under the shipped
access list and record rules, none of which writes a hash by hand or gives a record that keeps
its hash to somebody else, every raw key that authenticates as a user was last generated by
that user or by an administrator. -/
theorem holder_controls_run (P : Platform) (now : Int) (as : List Step)
    (has : (keys P).Every KeepsHolder (initial now) as) :
    HolderControls P ((keys P).exec (initial now) as) :=
  holderControls_of_controlled <|
    (keys P).invariant_of_every (I := fun s => ∀ r ∈ s.db.rows, Controlled P s.generated r)
      (fun _ _ h ha => controlled_next h ha) (fun r hr => (by cases hr)) as has

/-- The employee creates a key for a profile and generates it. -/
def ownKey : List Step :=
  [.request (.create ⟨employee, false⟩ { profileId := some 1 }),
   .request (.generateNewKey ⟨employee, false⟩ 0)]

theorem holder_controls_ownKey :
    HolderControls Platform.sample ((keys Platform.sample).exec (initial 0) ownKey) :=
  holder_controls_run Platform.sample 0 ownKey
    ⟨⟨rfl, fun _ h => (by cases h)⟩, rfl, trivial⟩

/-- The owner of a key gives its record to user 8; the raw key then authenticates as user 8. -/
def giveAway : Step := .request (.write ⟨employee, false⟩ [0] { userId := some 8 })

theorem not_holder_controls_giveAway :
    (keys Platform.sample).answer ((keys Platform.sample).exec (initial 0) ownKey) giveAway =
        some (.ok .done) ∧
      ¬ HolderControls Platform.sample
        ((keys Platform.sample).exec (initial 0) (ownKey ++ [giveAway])) := by
  refine ⟨rfl, fun h => ?_⟩
  obtain ⟨g, hg, hheld, -⟩ := h (rawKey Platform.sample 0)
    ⟨0, update (generatedVals Platform.sample 0) (blank 8 1)⟩ (by rfl)
  obtain rfl : (⟨0, employee, rawKey Platform.sample 0⟩ : Generation) = g :=
    Option.some.inj hg
  rcases hheld with hheld | hheld
  · exact absurd hheld (by decide)
  · exact absurd hheld (by decide)

end SsiRest.ApiKey
