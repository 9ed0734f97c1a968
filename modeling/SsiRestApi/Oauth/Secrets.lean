import Mathlib.Data.List.Pairwise
import SsiRestApi.Oauth.Effects

/-!
# Each row has a raw value of its own

Under exact hashing and pairwise distinct random texts, every row of a reachable
table was hashed from a raw value, no two from the same one.  A lookup of a raw
value therefore finds its row or none, whatever rows share its index.

    separated_run:        in every reachable state
    findByRaw_of_made:    a lookup finds the row that was made from the value
-/

namespace SsiRest.Oauth

open Py Tx

/-- The row was issued with the raw value of the `i`-th random text. -/
structure Made (P : Platform) (i : Nat) (t : Token) : Prop where
  index : t.tokenIndex = slice (rawValue P i) tokenIndexSize
  hash : t.tokenHash = P.crypt.hash i (rawValue P i)

/-- `raw` is the raw value of the row. -/
def IsRawValue (P : Platform) (raw : String) (t : Token) : Prop :=
  ∃ i, raw = rawValue P i ∧ Made P i t

/-- Two rows with ids and raw values of their own. -/
def Apart (P : Platform) (r r' : Row Token) : Prop :=
  r.id ≠ r'.id ∧ ∀ i, Made P i r.val → ¬ Made P i r'.val

instance (P : Platform) : Std.Symm (Apart P) where
  symm _ _ h := ⟨h.1.symm, fun i hi hi' => h.2 i hi' hi⟩

/-- All rows are apart, their ids below `n` and their random texts below `d`. -/
structure Separated (P : Platform) (d n : Nat) (rows : List (Row Token)) : Prop where
  apart : rows.Pairwise (Apart P)
  known : ∀ r ∈ rows, r.id < n ∧ ∃ i, i < d ∧ Made P i r.val

variable {P : Platform}

theorem Made.inj (hP : P.Exact) {i j : Nat} {t : Token} (hi : Made P i t) (hj : Made P j t) :
    i = j := by
  have hv := hP.crypt.verify_hash i (rawValue P i) (rawValue P i)
  rw [← hi.hash, hj.hash, hP.crypt.verify_hash] at hv
  simp only [Option.some.injEq, decide_eq_decide, iff_true] at hv
  exact rawValue_inj hP hv

theorem made_newToken (i : Nat) (now : Int) (clientId : Nat) (userId : Option Nat)
    (tokenType : TokenType) (scope : Json) (lifetime : Int) (challenge : Option Json)
    (method : Option ChallengeMethod) :
    Made P i (newToken P i now clientId userId tokenType scope lifetime challenge method) :=
  ⟨rfl, rfl⟩

/-- Revoking does not touch a row's index and hash. -/
theorem Evolves.made {t t' : Token} (h : Evolves t t') (i : Nat) : Made P i t' ↔ Made P i t := by
  rcases h with rfl | rfl
  · exact Iff.rfl
  · exact ⟨fun ⟨hi, hh⟩ => ⟨hi, hh⟩, fun ⟨hi, hh⟩ => ⟨hi, hh⟩⟩

theorem Origin.made {clients : Clients} {rows : List (Row Token)} {d e : Nat} {q : Request}
    {t : Token} (h : Origin P clients rows d e q t) : ∃ i, d ≤ i ∧ i < e ∧ Made P i t := by
  cases h with
  | authorized _ hi he => exact ⟨_, hi, he, made_newToken ..⟩
  | derived _ _ _ _ _ hi he => exact ⟨_, hi, he, made_newToken ..⟩
  | ownBehalf _ _ _ _ hi he => exact ⟨_, hi, he, made_newToken ..⟩

/-! ## What the operations of a log keep -/

theorem Separated.mono {d d' n n' : Nat} {rows : List (Row Token)} (h : Separated P d n rows)
    (hd : d ≤ d') (hn : n ≤ n') : Separated P d' n' rows where
  apart := h.apart
  known r hr := by
    obtain ⟨hlt, i, hi, hm⟩ := h.known r hr
    exact ⟨Nat.lt_of_lt_of_le hlt hn, i, Nat.lt_of_lt_of_le hi hd, hm⟩

theorem Separated.ins (hP : P.Exact) {d n i id : Nat} {rows : List (Row Token)} {val : Token}
    (h : Separated P d n rows) (hi : d ≤ i) (hid : n ≤ id) (hm : Made P i val) :
    Separated P (i + 1) (id + 1) (⟨id, val⟩ :: rows) where
  apart := by
    refine List.pairwise_cons.mpr ⟨fun r hr => ?_, h.apart⟩
    obtain ⟨hlt, j, hj, hmj⟩ := h.known r hr
    refine ⟨by dsimp only; omega, fun k hk hk' => ?_⟩
    have hki := Made.inj hP hk hm
    have hkj := Made.inj hP hk' hmj
    omega
  known r hr := by
    rcases List.mem_cons.mp hr with rfl | hr
    · exact ⟨Nat.lt_succ_self id, i, Nat.lt_succ_self i, hm⟩
    · exact (h.mono (Nat.le_succ_of_le hi) (Nat.le_succ_of_le hid)).known r hr

theorem Separated.map {d n : Nat} {rows : List (Row Token)} (h : Separated P d n rows)
    {f : Row Token → Row Token} (hf : ∀ r, (f r).id = r.id ∧ Evolves r.val (f r).val) :
    Separated P d n (rows.map f) where
  apart := by
    refine List.pairwise_map.mpr (h.apart.imp fun hrr => ?_)
    unfold Apart at hrr ⊢
    rw [(hf _).1, (hf _).1]
    exact ⟨hrr.1, fun i hi hi' => hrr.2 i (((hf _).2.made i).mp hi) (((hf _).2.made i).mp hi')⟩
  known r hr := by
    obtain ⟨r', hr', rfl⟩ := List.mem_map.mp hr
    obtain ⟨hlt, i, hi, hm⟩ := h.known r' hr'
    exact ⟨by rw [(hf r').1]; exact hlt, i, hi, ((hf r').2.made i).mpr hm⟩

theorem Separated.filter {d n : Nat} {rows : List (Row Token)} (h : Separated P d n rows)
    (p : Row Token → Bool) : Separated P d n (rows.filter p) where
  apart := h.apart.filter p
  known r hr := h.known r (List.mem_filter.mp hr).1

/-- An update or a deletion creates no row. -/
theorem Separated.change {d n : Nat} {rows : List (Row Token)} (h : Separated P d n rows)
    (op : RowOp Token TokenWrite) (hop : op.isIns = false) :
    Separated P d n (op.apply rows) := by
  cases op with
  | ins id val => cases hop
  | upd id u =>
    refine h.map fun r => ?_
    split
    · exact ⟨rfl, Or.inr rfl⟩
    · exact ⟨rfl, Or.inl rfl⟩
  | del id => exact h.filter _

theorem Separated.effect (hP : P.Exact) {clients : Clients} {d n e f : Nat}
    {rows : List (Row Token)} {q : Request} {reply : Reply}
    {log : List (RowOp Token TokenWrite)} (h : Separated P d n rows)
    (heff : Effect P clients rows d n e f q reply log) :
    ∃ e' f', e' ≤ max d e ∧ f' ≤ max n f ∧ Separated P e' f' (applyOps log rows) := by
  have hchange : (∀ op ∈ log, op.isIns = false) →
      ∃ e' f', e' ≤ max d e ∧ f' ≤ max n f ∧ Separated P e' f' (applyOps log rows) :=
    fun hlog => ⟨d, n, Nat.le_max_left _ _, Nat.le_max_left _ _,
      applyOps_induction (fun op ho _ hr => hr.change op (hlog op ho)) h⟩
  cases heff with
  | authorize _ _ hi he hid hf =>
    exact ⟨_, _, by omega, by omega, h.ins hP hi hid (made_newToken ..)⟩
  | clientCredentials _ _ _ _ hi he hid hf =>
    exact ⟨_, _, by omega, by omega, h.ins hP hi hid (made_newToken ..)⟩
  | refresh _ _ _ _ hi he hid hf =>
    exact ⟨_, _, by omega, by omega, h.ins hP hi hid (made_newToken ..)⟩
  | redeem _ _ _ _ _ hi hj he hid hid' hf =>
    exact ⟨_, _, by omega, by omega,
      ((h.change (.upd _ .revoked) rfl).ins hP hi hid (made_newToken ..)).ins hP
        (by omega) (by omega) (made_newToken ..)⟩
  | revoke _ _ => exact hchange (by simp)
  | actionRevoke => exact hchange (by simp)
  | gcExpiredOauthToken =>
    refine hchange fun op hop => ?_
    obtain ⟨id, -, rfl⟩ := List.mem_map.mp hop
    exact RowOp.isIns_del id

theorem separated_next (hP : P.Exact) {s : State} (a : Step)
    (h : Separated P s.drawn s.nextId s.rows) :
    Separated P ((server P).next s a).drawn ((server P).next s a).nextId
      ((server P).next s a).rows := by
  obtain ⟨hd, hn⟩ := next_counters P s a
  cases a with
  | tick now => exact h
  | editClients clients => exact h.filter _
  | request q =>
    rcases request_effect P s q with ⟨_, -, hrows⟩ | ⟨_, log, e, f, -, heff, he, hf, hrows⟩
    · rw [hrows]
      exact h.mono hd hn
    · rw [hrows]
      obtain ⟨e', f', he', hf', hsep⟩ := h.effect hP heff
      exact hsep.mono (by omega) (by omega)

/-- In every reachable state each row has a raw value of its own. -/
theorem separated_run (hP : P.Exact) (clients : Clients) (now : Int) (as : List Step) :
    Separated P ((server P).exec (initial clients now) as).drawn
      ((server P).exec (initial clients now) as).nextId
      ((server P).exec (initial clients now) as).rows :=
  (server P).invariant (I := fun s => Separated P s.drawn s.nextId s.rows)
    (fun _ a h => separated_next hP a h)
    ⟨List.Pairwise.nil, fun r hr => by cases hr⟩ as

/-! ## Lookups -/

theorem Made.hashed {i : Nat} {t : Token} (h : Made P i t) :
    CryptContext.Hashed P.crypt (some t.tokenHash) (some (rawValue P i)) :=
  ⟨i, congrArg some h.hash⟩

/-- A hash that verifies a text was made from it. -/
theorem Made.of_verify (hP : P.Exact) {i : Nat} {t : Token} (h : Made P i t) {raw : String}
    (hv : P.crypt.verify raw t.tokenHash = some true) : raw = rawValue P i := by
  rw [h.hash, hP.crypt.verify_hash] at hv
  simpa using hv

/-- In a separated table the raw value determines the row. -/
theorem Separated.eq_of_made {d n : Nat} {rows : List (Row Token)} (h : Separated P d n rows)
    {r r' : Row Token} (hr : r ∈ rows) (hr' : r' ∈ rows) {i : Nat} (hm : Made P i r.val)
    (hm' : Made P i r'.val) : r = r' := by
  by_contra hne
  exact (h.apart.forall hr hr' hne).2 i hm hm'

/-- So does the id. -/
theorem Separated.eq_of_id {d n : Nat} {rows : List (Row Token)} (h : Separated P d n rows)
    {r r' : Row Token} (hr : r ∈ rows) (hr' : r' ∈ rows) (hid : r.id = r'.id) : r = r' := by
  by_contra hne
  exact (h.apart.forall hr hr' hne).1 hid

theorem Separated.hashed {d n : Nat} {rows : List (Row Token)} (h : Separated P d n rows)
    {r : Row Token} (hr : r ∈ rows) :
    ∃ raw?, CryptContext.Hashed P.crypt (some r.val.tokenHash) raw? := by
  obtain ⟨-, i, -, hm⟩ := h.known r hr
  exact ⟨_, hm.hashed⟩

/-- A lookup finds the row made from the value, if the row meets its condition. -/
theorem findByRaw_of_made (hP : P.Exact) {d n : Nat} {rows : List (Row Token)}
    (h : Separated P d n rows) {cond : Token → Bool} {r : Row Token} (hr : r ∈ rows)
    (hcond : cond r.val = true) {i : Nat} (hm : Made P i r.val) :
    findByRaw P rows (.str (rawValue P i)) cond = .ok (some r) := by
  have hcandidate : r ∈ rows.filter fun r =>
      r.val.tokenIndex == slice (rawValue P i) tokenIndexSize && cond r.val :=
    List.mem_filter.mpr ⟨hr, by simp [hm.index, hcond]⟩
  obtain ⟨b, hb⟩ : ∃ b, P.crypt.firstMatch hashError
      (fun r : Row Token => some r.val.tokenHash) (rawValue P i)
      (rows.filter fun r =>
        r.val.tokenIndex == slice (rawValue P i) tokenIndexSize && cond r.val) = .ok (some b) :=
    hP.crypt.firstMatch_of_mem (fun a ha => h.hashed (List.mem_filter.mp ha).1) hcandidate
      hm.hashed
  have hfind : findByRaw P rows (.str (rawValue P i)) cond = .ok (some b) := by
    simpa [findByRaw, rawValue_ne] using hb
  -- the row found has the value's hash as well, so it is the same row
  obtain ⟨hbr, -, s, hs, hv⟩ := findByRaw_some hfind
  cases hs
  obtain ⟨-, j, -, hmj⟩ := h.known b hbr
  obtain rfl := rawValue_inj hP (hmj.of_verify hP hv)
  rw [hfind, h.eq_of_made hr hbr hm hmj]

/-- A lookup on a separated table fails only for its argument, whatever the rows. -/
theorem findByRaw_error (hP : P.Exact) {d n : Nat} {rows : List (Row Token)}
    (h : Separated P d n rows) {raw : Json} {cond : Token → Bool} {err : Exn}
    (he : findByRaw P rows raw cond = .error err) (rows' : List (Row Token))
    (cond' : Token → Bool) : findByRaw P rows' raw cond' = .error err := by
  cases raw with
  | str s =>
    obtain ⟨found, hf⟩ : ∃ found, P.crypt.firstMatch hashError
        (fun r : Row Token => some r.val.tokenHash) s
        (rows.filter fun r => r.val.tokenIndex == slice s tokenIndexSize && cond r.val) =
          .ok found :=
      hP.crypt.exists_firstMatch fun a ha => h.hashed (List.mem_filter.mp ha).1
    simp only [findByRaw, hf] at he
    split at he <;> cases he
  | _ => exact he

end SsiRest.Oauth
