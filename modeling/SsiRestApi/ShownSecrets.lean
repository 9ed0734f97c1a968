import SsiRestApi.Extraction
import SsiRestApi.Mint

/-!
# Generated secrets are shown once

The action that generates keys or client secrets returns the notification of its last
record.  The raw values of the others are stored nowhere and shown to nobody.

    every raw value is shown ↔ a record is missing or is a public client, or there is at
      most one record                                             (generated_shown_iff)
-/

namespace SsiRest

open Py Tx

/-- The raw value occurs in the message. -/
def Notification.Shows (n : Notification) (raw : String) : Prop :=
  raw.toList <:+: n.message.toList

namespace Credential

variable {P : Platform} {κ ρ υ : Type} [Update υ ρ] (C : Credential P ρ υ)

/-! ## What is shown -/

/-- The notification shows the raw value of the record's hash. -/
def ShownIn (n : Notification) (record : ρ) : Prop :=
  ∃ raw hash, n.Shows raw ∧ C.hash record = some hash ∧ P.crypt.verify raw hash = some true

/-- No notification shows the raw value of another. -/
def NotificationsApart : Prop :=
  ∀ i j, (C.notification (C.raw j)).Shows (C.raw i) → i = j

/-- Each record whose hash a call replaces has its raw value in the notification that is returned,
and a call that returns none leaves every record as it was. -/
def ShowsWhatItMints (db : Db κ ρ) (env : Env) (ids : List Nat) : Prop :=
  let result := (C.actionGenerate env ids).transact db
  (∀ r ∈ db.rows, ∀ r' ∈ result.1.rows, r'.id = r.id → C.hash r'.val ≠ C.hash r.val →
    ∃ n, result.2 = .ok n ∧ C.ShownIn n r'.val) ∧
  ((∃ n, result.2 = .ok n) ∨ result.1.rows = db.rows)

/-- A record is missing or fails the action's own check, or all of them are one record. -/
def Lone (ids : List Nat) (rows : List (Row ρ)) : Prop :=
  (∃ id ∈ ids, ∀ r ∈ rows, r.id = id → C.check r.val ≠ .ok ()) ∨ ∀ id ∈ ids, ∀ id' ∈ ids, id = id'

/-- Calls one after another: what they leave, and the notifications they return. -/
def callEach : Db κ ρ → List (Env × List Nat) → Db κ ρ × List Notification
  | db, [] => (db, [])
  | db, (env, ids) :: calls =>
    let result := (C.actionGenerate env ids).transact db
    let (last, shown) := callEach result.1 calls
    (last, result.2.toOption.toList ++ shown)

/-- Each call finds at most one record, or one it raises for. -/
def EachLone : Db κ ρ → List (Env × List Nat) → Prop
  | _, [] => True
  | db, (env, ids) :: calls =>
    C.Lone ids db.rows ∧ EachLone ((C.actionGenerate env ids).transact db).1 calls

/-- Each record that ends with another hash has its raw value in a notification. -/
def ShowsAllMinted (db : Db κ ρ) (calls : List (Env × List Nat)) : Prop :=
  let result := C.callEach db calls
  ∀ r ∈ db.rows, ∀ r' ∈ result.1.rows, r'.id = r.id → C.hash r'.val ≠ C.hash r.val →
    ∃ n ∈ result.2, C.ShownIn n r'.val

/-! ## The last record -/

variable {C}

theorem mintOps_concat (d : Nat) (ids : List Nat) (id : Nat) :
    C.mintOps d (ids ++ [id]) = C.mintOps d ids ++ [.upd id (C.vals (d + ids.length))] := by
  induction ids generalizing d with
  | nil => rfl
  | cons id' ids ih =>
    rw [List.cons_append, mintOps, mintOps, ih, List.cons_append, List.length_cons,
      Nat.add_right_comm, Nat.add_assoc]

theorem lastNotification_concat (d : Nat) (ids : List Nat) (id : Nat)
    (result : Option Notification) :
    C.lastNotification d (ids ++ [id]) result = some (C.notification (C.raw (d + ids.length))) := by
  induction ids generalizing d result with
  | nil => rfl
  | cons id' ids ih =>
    rw [List.cons_append, lastNotification, ih, List.length_cons, Nat.add_right_comm, Nat.add_assoc]

/-- A call that goes through shows the raw value of its last record. -/
theorem transact_of_ready (env : Env) {ids : List Nat} {id : Nat} {db : Db κ ρ}
    (h : C.Ready (ids ++ [id]) db.rows) :
    (C.actionGenerate env (ids ++ [id])).transact db =
      ({ db with
          rows := applyOps (C.mintOps db.drawn (ids ++ [id])) db.rows
          drawn := db.drawn + (ids ++ [id]).length },
        .ok (C.notification (C.raw (db.drawn + ids.length)))) := by
  have hsu : env.sudo.su = true := rfl
  rcases run_generateEach (C := C) hsu (ids ++ [id]) none db with ⟨-, hrun⟩ | ⟨hnot, -⟩
  · unfold Prog.transact actionGenerate
    rw [Prog.run_bind, hrun, lastNotification_concat]
    rfl
  · exact absurd h hnot

/-- What becomes of a row: the last record has the hash of the last text, another record that of
an earlier one. -/
theorem exists_mem_concat {rows : List (Row ρ)} {r : Row ρ} (hr : r ∈ rows) (d : Nat)
    (ids : List Nat) (id : Nat) :
    ∃ r' ∈ applyOps (C.mintOps d (ids ++ [id])) rows, r'.id = r.id ∧
      (r.id = id → C.hash r'.val =
        some (P.crypt.hash (d + ids.length) (C.raw (d + ids.length)))) ∧
      (r.id ≠ id → r.id ∈ ids → ∃ i, d ≤ i ∧ i < d + ids.length ∧
        C.hash r'.val = some (P.crypt.hash i (C.raw i))) ∧
      (r.id ≠ id → r.id ∉ ids → r' = r) := by
  obtain ⟨r', hr', hid, hsame, hfresh⟩ := exists_mem_mintOps_lt (C := C) hr d ids
  rw [mintOps_concat, applyOps_concat]
  refine ⟨_, List.mem_map.mpr ⟨r', hr', rfl⟩, ?_⟩
  by_cases he : r.id = id
  · rw [if_pos (hid.trans he)]
    exact ⟨hid, fun _ => C.hash_update _ _, fun hne => absurd he hne, fun hne => absurd he hne⟩
  · rw [if_neg (hid ▸ he)]
    exact ⟨hid, fun h => absurd h he, fun _ => hfresh, fun _ => hsame⟩

theorem numbered_mintOps {n : Nat} {rows : List (Row ρ)} (h : Numbered n rows) (d : Nat)
    (ids : List Nat) : Numbered n (applyOps (C.mintOps d ids) rows) :=
  applyOps_induction (fun op hop _ h => h.change op (mem_mintOps hop).1) h

/-! ## One call -/

theorem shows_notification (raw : String) : (C.notification raw).Shows raw := by
  unfold Notification.Shows notification
  rw [String.toList_append]
  exact List.infix_append_right

/-- Only the raw value it was made of is behind a hash. -/
theorem shownIn_iff (hP : P.Exact) {n : Notification} {record : ρ} {i : Nat}
    (h : C.hash record = some (P.crypt.hash i (C.raw i))) :
    C.ShownIn n record ↔ n.Shows (C.raw i) := by
  constructor
  · rintro ⟨raw, hash, hshows, hhash, hverify⟩
    rw [h, Option.some.injEq] at hhash
    rw [← hhash, hP.crypt.verify_hash, Option.some.injEq, decide_eq_true_iff] at hverify
    exact hverify ▸ hshows
  · intro hshows
    refine ⟨_, _, hshows, h, ?_⟩
    rw [hP.crypt.verify_hash]
    simp

/-- A hash that was there before is of no text not drawn yet. -/
theorem hash_ne_of_drawn (hP : P.Exact) {db : Db κ ρ} (hdb : WellFormed C db) {r : Row ρ}
    (hr : r ∈ db.rows) {i : Nat} (hi : db.drawn ≤ i) :
    C.hash r.val ≠ some (P.crypt.hash i (C.raw i)) := by
  intro h
  refine hdb.fresh r hr _ h i hi ?_
  rw [hP.crypt.verify_hash]
  simp

/-- A call that goes through on two records shows the raw value of one of them to nobody. -/
theorem not_showsWhatItMints (hP : P.Exact) (hapart : C.NotificationsApart) {db : Db κ ρ}
    (hdb : WellFormed C db) (env : Env) {ids : List Nat} {id id' : Nat}
    (hready : C.Ready (ids ++ [id]) db.rows) (hid' : id' ∈ ids) (hne : id' ≠ id) :
    ¬ C.ShowsWhatItMints db env (ids ++ [id]) := by
  rintro ⟨hshown, -⟩
  rw [transact_of_ready env hready] at hshown
  obtain ⟨r, hfind, -⟩ := hready id' (List.mem_append_left _ hid')
  have hr := List.mem_of_find?_eq_some hfind
  have hrid : r.id = id' := by simpa using List.find?_some hfind
  obtain ⟨r', hr', he, -, hother, -⟩ := exists_mem_concat (C := C) hr db.drawn ids id
  obtain ⟨i, hi, hlt, hhash⟩ := hother (hrid ▸ hne) (hrid ▸ hid')
  obtain ⟨n, hn, hshows⟩ := hshown r hr r' hr' he fun hsame =>
    hash_ne_of_drawn hP hdb hr hi (hsame ▸ hhash)
  cases hn
  have hlast := hapart _ _ ((shownIn_iff hP hhash).mp hshows)
  omega

/-- **One call.**  It shows what it mints exactly when it finds at most one record, or one that it
raises for. -/
theorem showsWhatItMints_iff (hP : P.Exact) (hapart : C.NotificationsApart) {db : Db κ ρ}
    (hdb : WellFormed C db) (env : Env) (ids : List Nat) :
    C.ShowsWhatItMints db env ids ↔ C.Lone ids db.rows := by
  unfold Lone
  rw [← not_ready_iff hdb.numbered]
  constructor
  · intro h
    by_contra hnot
    rw [not_or, not_not] at hnot
    obtain ⟨hready, hmany⟩ := hnot
    rcases List.eq_nil_or_concat' ids with rfl | ⟨init, last, rfl⟩
    · exact hmany fun _ hid => nomatch hid
    · refine hmany fun id hid id' hid' => ?_
      have hlast : ∀ id ∈ init ++ [last], id = last := by
        intro id hid
        by_contra hne
        rcases List.mem_append.mp hid with hid | hid
        · exact not_showsWhatItMints hP hapart hdb env hready hid hne h
        · exact hne (List.mem_singleton.mp hid)
      rw [hlast id hid, hlast id' hid']
  · intro hlone
    rcases transact_actionGenerate (C := C) env ids db with
      ⟨hne, hready, -⟩ | ⟨-, hrows, e, -⟩
    · have hsame := hlone.resolve_left (not_not_intro hready)
      obtain ⟨init, last, rfl⟩ := (List.eq_nil_or_concat' ids).resolve_left hne
      unfold ShowsWhatItMints
      rw [transact_of_ready env hready]
      refine ⟨fun r hr r' hr' he hchanged => ⟨_, rfl, ?_⟩, Or.inl ⟨_, rfl⟩⟩
      obtain ⟨r'', hr'', he'', hlast, -, hkeep⟩ := exists_mem_concat (C := C) hr db.drawn init last
      obtain rfl := (numbered_mintOps hdb.numbered _ _).eq_of_id hr' hr'' (he.trans he''.symm)
      by_cases hid : r.id = last
      · exact (shownIn_iff hP (hlast hid)).mpr (shows_notification _)
      · refine absurd (congrArg (fun r : Row ρ => C.hash r.val) (hkeep hid fun hin => hid ?_)) hchanged
        exact hsame _ (List.mem_append_left _ hin) _ (by simp)
    · refine ⟨fun r hr r' hr' he hchanged => ?_, Or.inr hrows⟩
      rw [hrows] at hr'
      obtain rfl := hdb.numbered.eq_of_id hr' hr he
      exact absurd rfl hchanged

/-! ## Runs of calls -/

/-- A call leaves a table whose hashes match no text still to be drawn. -/
theorem wellFormed_actionGenerate (hP : P.Exact) (hapart : C.NotificationsApart) {db : Db κ ρ}
    (hdb : WellFormed C db) (env : Env) (ids : List Nat) :
    WellFormed C ((C.actionGenerate env ids).transact db).1 := by
  obtain ⟨-, -, hdrawn, hnext⟩ := Prog.transact_frame (C.actionGenerate env ids) db
  rcases transact_actionGenerate (C := C) env ids db with
    ⟨hne, hready, -⟩ | ⟨-, hrows, -⟩
  · obtain ⟨init, last, rfl⟩ := (List.eq_nil_or_concat' ids).resolve_left hne
    rw [transact_of_ready env hready]
    refine ⟨numbered_mintOps hdb.numbered _ _, fun r' hr' hash hhash i hi hverify => ?_⟩
    rcases mem_applyOps hr' with ⟨r, hr, he⟩ | ⟨val, hins⟩
    · obtain ⟨r'', hr'', he'', hkeep, hfresh⟩ :=
        exists_mem_mintOps_lt (C := C) hr db.drawn (init ++ [last])
      obtain rfl := (numbered_mintOps hdb.numbered _ _).eq_of_id hr' hr'' (he''.trans he).symm
      by_cases hin : r.id ∈ init ++ [last]
      · obtain ⟨j, -, hlt, hj⟩ := hfresh hin
        rw [hj, Option.some.injEq] at hhash
        rw [← hhash, hP.crypt.verify_hash, Option.some.injEq, decide_eq_true_iff] at hverify
        have hij : i = j := by
          refine hapart i j ?_
          rw [hverify]
          exact shows_notification _
        exact absurd (hij ▸ hi) (Nat.not_le.mpr hlt)
      · rw [hkeep hin] at hhash
        refine hdb.fresh r hr hash hhash i (Nat.le_trans ?_ hi) hverify
        exact Nat.le_add_right _ _
    · exact absurd (mem_mintOps hins).1 (by simp)
  · refine ⟨?_, ?_⟩
    · rw [hrows]
      exact hdb.numbered.mono hnext
    · rw [hrows]
      exact fun r hr hash hhash i hi => hdb.fresh r hr hash hhash i (Nat.le_trans hdrawn hi)

/-- A call leaves every record there. -/
theorem exists_mem_actionGenerate {db : Db κ ρ} {r : Row ρ} (hr : r ∈ db.rows) (env : Env)
    (ids : List Nat) :
    ∃ r' ∈ ((C.actionGenerate env ids).transact db).1.rows, r'.id = r.id := by
  rcases transact_actionGenerate (C := C) env ids db with ⟨-, -, hrows, -⟩ | ⟨-, hrows, -⟩
  · rw [hrows]
    obtain ⟨r', hr', he, -⟩ := exists_mem_mintOps (C := C) hr db.drawn ids
    exact ⟨r', hr', he⟩
  · rw [hrows]
    exact ⟨r, hr, rfl⟩

/-- **A run of calls.**  Induction on the calls: when each finds at most one record, or one that it
raises for, no record ends with a hash whose raw value was shown to nobody. -/
theorem showsAllMinted (hP : P.Exact) (hapart : C.NotificationsApart)
    (calls : List (Env × List Nat)) {db : Db κ ρ} (hdb : WellFormed C db)
    (hlone : C.EachLone db calls) : C.ShowsAllMinted db calls := by
  induction calls generalizing db with
  | nil =>
    intro r hr r' hr' he hchanged
    obtain rfl := hdb.numbered.eq_of_id hr' hr he
    exact absurd rfl hchanged
  | cons call calls ih =>
    obtain ⟨env, ids⟩ := call
    obtain ⟨hcall, hcalls⟩ := hlone
    have hdb' := wellFormed_actionGenerate hP hapart hdb env ids
    obtain ⟨hshown, -⟩ := (showsWhatItMints_iff hP hapart hdb env ids).mpr hcall
    intro r hr r'' hr'' he hchanged
    obtain ⟨r', hr', he'⟩ := exists_mem_actionGenerate (C := C) hr env ids
    by_cases hlater : C.hash r''.val = C.hash r'.val
    · -- the hash is of this call
      obtain ⟨n, hn, raw, hash, hshows, hhash, hverify⟩ :=
        hshown r hr r' hr' he' (hlater ▸ hchanged)
      refine ⟨n, List.mem_append_left _ ?_, raw, hash, hshows, hlater.trans hhash, hverify⟩
      rw [hn]
      exact List.mem_singleton_self n
    · obtain ⟨n, hn, hin⟩ := ih hdb' hcalls r' hr' r'' hr'' (he.trans he'.symm) hlater
      exact ⟨n, List.mem_append_right _ hn, hin⟩

end Credential

/-! ## Keys and client secrets -/

/-- No random text occurs in another. -/
def Platform.Apart (P : Platform) : Prop :=
  ∀ i j, (P.tokenUrlsafe i).toList <:+: (P.tokenUrlsafe j).toList → i = j

theorem Platform.Apart.eq_of_rawValue {P : Platform} (hP : P.Apart) {pre : String} {i j : Nat}
    (h : (P.rawValue pre i).toList <:+: (P.rawValue pre j).toList) : i = j := by
  unfold Platform.rawValue at h
  rw [String.toList_append, String.toList_append] at h
  obtain ⟨s, t, hst⟩ := h
  rw [← List.append_assoc, List.append_assoc] at hst
  refine hP i j ?_
  -- the random text stands behind the prefix
  rcases List.append_eq_append_iff.mp hst with ⟨rest, hpre, htail⟩ | ⟨rest, -, htail⟩
  · have hnil : rest = [] := by
      have hlength := congrArg List.length hpre
      simp only [List.length_append] at hlength
      exact List.eq_nil_of_length_eq_zero (by omega)
    rw [hnil, List.nil_append] at htail
    exact ⟨[], t, htail⟩
  · exact ⟨rest, t, by rw [List.append_assoc, htail]⟩

/-- In a notification only its own raw value occurs. -/
theorem Platform.Apart.eq_of_message {P : Platform} (hP : P.Apart) (hurl : P.Urlsafe)
    (text pre : String) (htext : text.toList.getLast? = some '\n')
    (hpre : ¬ pre.toList <:+: text.toList) (hplain : '\n' ∉ pre.toList) {i j : Nat}
    (h : (P.rawValue pre i).toList <:+: (text ++ P.rawValue pre j).toList) : i = j := by
  have hline : '\n' ∉ (P.rawValue pre i).toList := by
    unfold Platform.rawValue
    rw [String.toList_append]
    intro hin
    rcases List.mem_append.mp hin with hin | hin
    · exact hplain hin
    · exact (alphabet_plain _ (hurl i _ hin)).2.2.1 rfl
  have hhead : pre.toList <:+: (P.rawValue pre i).toList := by
    unfold Platform.rawValue
    rw [String.toList_append]
    exact List.infix_append_left
  rw [String.toList_append] at h
  rcases List.infix_append_iff.mp h with h | h | ⟨before, behind, hsplit, hbefore, hbehind⟩
  · exact absurd (hhead.trans h) hpre
  · exact hP.eq_of_rawValue h
  · cases hlast : before.getLast? with
    | none =>
      rw [List.getLast?_eq_none_iff.mp hlast, List.nil_append] at hsplit
      exact hP.eq_of_rawValue (hsplit ▸ hbehind.isInfix)
    | some c =>
      -- what is in the text ends where it ends
      have hc : c = '\n' := by
        obtain ⟨s, hs⟩ := hbefore
        rw [← hs, List.getLast?_append, hlast] at htext
        exact Option.some.inj htext
      have hin : c ∈ (P.rawValue pre i).toList := by
        rw [hsplit]
        exact List.mem_append_left _ (List.mem_of_getLast? hlast)
      exact absurd (hc ▸ hin) hline

theorem key_apart {P : Platform} (hP : P.Apart) (hurl : P.Urlsafe) :
    (ApiKey.keyCredential P).NotificationsApart := fun _ _ h =>
  hP.eq_of_message hurl "Copy this key now, it will not be shown again:\n\n" ApiKey.keyPrefix
    (by decide) (by decide +kernel) (by decide) h

theorem clientSecret_apart {P : Platform} (hP : P.Apart) (hurl : P.Urlsafe) :
    (Oauth.clientCredential P).NotificationsApart := fun _ _ h =>
  hP.eq_of_message hurl "Copy this client secret now, it will not be shown again:\n\n"
    Oauth.secretPrefix (by decide) (by decide +kernel) (by decide) h

/-- **Generated secrets.**  A call of `action_generate_key` or `action_generate_client_secret` shows
every raw value it replaces a hash for exactly when a record is missing or is a public client, or
there is at most one record; in a run of such calls no record ends with a hash nobody was shown
the raw value of. -/
theorem generated_shown_iff {P : Platform} (hP : P.Exact) (hurl : P.Urlsafe) (hapart : P.Apart) :
    (∀ db : Db Unit ApiKey.Key, (ApiKey.keyCredential P).WellFormed db →
      (∀ env ids, (ApiKey.keyCredential P).ShowsWhatItMints db env ids ↔
        (∃ id ∈ ids, ∀ r ∈ db.rows, r.id ≠ id) ∨ ∀ id ∈ ids, ∀ id' ∈ ids, id = id') ∧
      ∀ calls, (ApiKey.keyCredential P).EachLone db calls →
        (ApiKey.keyCredential P).ShowsAllMinted db calls) ∧
    ∀ db : Db Unit Oauth.Client, (Oauth.clientCredential P).WellFormed db →
      (∀ env ids, (Oauth.clientCredential P).ShowsWhatItMints db env ids ↔
        (∃ id ∈ ids, ∀ r ∈ db.rows, r.id = id → r.val.clientType ≠ .confidential) ∨
          ∀ id ∈ ids, ∀ id' ∈ ids, id = id') ∧
      ∀ calls, (Oauth.clientCredential P).EachLone db calls →
        (Oauth.clientCredential P).ShowsAllMinted db calls := by
  refine ⟨fun db hdb => ⟨fun env ids => ?_, fun calls hcalls => ?_⟩,
    fun db hdb => ⟨fun env ids => ?_, fun calls hcalls => ?_⟩⟩
  · rw [Credential.showsWhatItMints_iff hP (key_apart hapart hurl) hdb]
    simp [Credential.Lone]
  · exact Credential.showsAllMinted hP (key_apart hapart hurl) calls hdb hcalls
  · rw [Credential.showsWhatItMints_iff hP (clientSecret_apart hapart hurl) hdb]
    simp only [Credential.Lone, Oauth.clientCredential_check, ne_eq, Oauth.requireConfidential_ok]
  · exact Credential.showsAllMinted hP (clientSecret_apart hapart hurl) calls hdb hcalls

/-! ## Two records -/

/-- A platform whose random texts have a mark at both ends. -/
def Platform.fenced : Platform :=
  { Platform.sample with
    tokenUrlsafe := fun i => String.ofList ('A' :: (List.replicate i 'B' ++ ['A'])) }

theorem fenced_apart : Platform.fenced.Apart := by
  intro i j h
  unfold Platform.fenced at h
  simp only [String.toList_ofList] at h
  obtain ⟨s, t, hst⟩ := h
  cases s with
  | nil =>
    rw [List.nil_append, List.cons_append, List.append_assoc] at hst
    have hB : ∀ n, ∀ c ∈ List.replicate n 'B', (c == 'B') = true := by simp
    have htaken := congrArg (List.takeWhile (· == 'B')) (List.cons.inj hst).2
    rw [List.takeWhile_append_of_pos (hB i), List.takeWhile_append_of_pos (hB j)] at htaken
    have hlength := congrArg List.length htaken
    simpa using hlength
  | cons c s =>
    have hcount := congrArg (List.count 'A') (List.cons.inj hst).2
    simp [List.count_append, List.count_replicate] at hcount
    omega

theorem fenced_exact : Platform.fenced.Exact where
  crypt := CryptContext.tagged_exact
  token_inj i j h := by
    have hlength := congrArg (fun s => s.toList.length) h
    unfold Platform.fenced at hlength
    simpa using hlength

theorem fenced_urlsafe : Platform.fenced.Urlsafe := by
  intro i c hc
  unfold Platform.fenced at hc
  simp only [String.toList_ofList, List.mem_cons, List.mem_append, List.mem_replicate,
    List.not_mem_nil, or_false] at hc
  rcases hc with rfl | ⟨-, rfl⟩ | rfl
  all_goals decide

/-- Two keys that have none yet. -/
def blankKeys : Db Unit ApiKey.Key := ⟨(), [⟨1, ApiKey.blank 7 1⟩, ⟨2, ApiKey.blank 7 1⟩], 0, 0, 3⟩

/-- Two confidential clients without a secret. -/
def newClients : Db Unit Oauth.Client := ⟨(), [newClient, ⟨2, newClient.val⟩], 0, 0, 3⟩

theorem wellFormed_blankKeys : (ApiKey.keyCredential Platform.fenced).WellFormed blankKeys where
  numbered := ⟨by decide, by decide⟩
  fresh r hr hash hhash := by
    have hnone : ∀ r ∈ blankKeys.rows, r.val.keyHash = none := by decide
    cases (hnone r hr).symm.trans hhash

theorem wellFormed_newClients : (Oauth.clientCredential Platform.fenced).WellFormed newClients where
  numbered := ⟨by decide, by decide⟩
  fresh r hr hash hhash := by
    have hnone : ∀ r ∈ newClients.rows, r.val.clientSecretHash = none := by decide
    cases (hnone r hr).symm.trans hhash

theorem generated_shown_one :
    (ApiKey.keyCredential Platform.fenced).ShowsWhatItMints blankKeys ⟨employee, false⟩ [1] ∧
      (Oauth.clientCredential Platform.fenced).ShowsAllMinted newClients
        [(⟨employee, false⟩, [1]), (⟨employee, false⟩, [2])] := by
  obtain ⟨hkeys, hclients⟩ := generated_shown_iff fenced_exact fenced_urlsafe fenced_apart
  refine ⟨((hkeys blankKeys wellFormed_blankKeys).1 _ [1]).mpr (Or.inr (by decide)),
    (hclients newClients wellFormed_newClients).2 _ ⟨Or.inr (by decide), Or.inr (by decide), trivial⟩⟩

/-- Of two keys, or two clients, the first raw value is lost. -/
theorem not_shown_two :
    ¬ (ApiKey.keyCredential Platform.fenced).ShowsWhatItMints blankKeys ⟨employee, false⟩ [1, 2] ∧
      ¬ (Oauth.clientCredential Platform.fenced).ShowsWhatItMints newClients ⟨employee, false⟩
        [1, 2] := by
  constructor
  · rw [Credential.showsWhatItMints_iff fenced_exact (key_apart fenced_apart fenced_urlsafe)
      wellFormed_blankKeys]
    rintro (⟨id, hid, hmissing⟩ | hlone)
    · have hfound : ∀ id ∈ [1, 2], ∃ r ∈ blankKeys.rows, r.id = id := by decide
      obtain ⟨r, hr, he⟩ := hfound id hid
      exact hmissing r hr he rfl
    · exact absurd (hlone 1 (by decide) 2 (by decide)) (by decide)
  · rw [Credential.showsWhatItMints_iff fenced_exact (clientSecret_apart fenced_apart fenced_urlsafe)
      wellFormed_newClients]
    rintro (⟨id, hid, hpublic⟩ | hlone)
    · have hfound : ∀ id ∈ [1, 2], ∃ r ∈ newClients.rows, r.id = id ∧
          r.val.clientType = .confidential := by decide
      obtain ⟨r, hr, he, htype⟩ := hfound id hid
      exact hpublic r hr he (Oauth.requireConfidential_ok.mpr htype)
    · exact absurd (hlone 1 (by decide) 2 (by decide)) (by decide)

end SsiRest
