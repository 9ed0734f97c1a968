import SsiRestApi.AccessProfile
import SsiRestApi.Jwt
import SsiRestApi.Lib.KeyedCache
import SsiRestApi.Lib.Machine

/-!
# The cache of key set clients

`lib/jwks_cache.py` of `ssi_rest_auth_jwt`: one `PyJWKClient` for an issuer, shared by the
threads of a process.  A thread works in a transaction of its own: it sees the issuers that were
committed when the transaction began and what it has written itself.  Every call of the cache
holds the lock; what lies between two calls of one thread is open to the others.

    a client is of the URL it is asked for, a verification uses keys of the URL its transaction
    sees, and calls for one issuer and URL share a client                    (jwksCache_spec)
-/

namespace SsiRest.Jwt

open Py

/-- `JWKS_CACHE_TTL_SECONDS`. -/
def jwksCacheTtlSeconds : Nat := 300

/-- A key set and the URL it was fetched from. -/
structure KeySet where
  url : Option String
  keys : List String
  deriving DecidableEq

/-- `jwt.PyJWKClient`, whose code is not part of the repository. -/
structure PyJwkClientClass where
  Client : Type
  /-- `PyJWKClient(uri, lifespan=…)`. -/
  new : Option String → Nat → Client
  uri : Client → Option String
  /-- The key set it holds. -/
  keySet : Client → Option KeySet
  /-- `client.get_signing_key_from_jwt(token).key` at a time, with what a fetch from a URL brings
  then; the key comes with the set it is in. -/
  getSigningKeyFromJwt : (Option String → Option KeySet) → Nat → String → Client →
    Client × Except LibraryError (KeySet × String)

/-- A client keeps its URL, holds no keys at first, and fetches from its URL alone. -/
structure PyJwkClientClass.Documented (K : PyJwkClientClass) : Prop where
  uri_new : ∀ url lifespan, K.uri (K.new url lifespan) = url
  keySet_new : ∀ url lifespan, K.keySet (K.new url lifespan) = none
  uri_call : ∀ fetch now token client,
    K.uri (K.getSigningKeyFromJwt fetch now token client).1 = K.uri client
  keySet_call : ∀ fetch now token client set,
    K.keySet (K.getSigningKeyFromJwt fetch now token client).1 = some set →
      K.keySet client = some set ∨ fetch (K.uri client) = some set
  set_of_ok : ∀ fetch now token client set key,
    (K.getSigningKeyFromJwt fetch now token client).2 = .ok (set, key) →
      K.keySet client = some set ∨ fetch (K.uri client) = some set

/-- What `write` is given. -/
structure IssuerVals where
  active : Option Bool := none
  issuer : Option String := none
  audience : Option String := none
  algorithm : Option String := none
  jwksUrl : Option (Option String) := none
  sharedSecret : Option (Option String) := none
  userClaim : Option String := none
  userMatchField : Option MatchField := none
  leeway : Option Int := none
  profileId : Option (Option Nat) := none

/-- Whether the constraint on the key source runs. -/
def IssuerVals.setsKeySource (vals : IssuerVals) : Bool :=
  vals.algorithm.isSome || vals.jwksUrl.isSome || vals.sharedSecret.isSome

def IssuerVals.writeTo (vals : IssuerVals) (issuer : Issuer) : Issuer where
  active := vals.active.getD issuer.active
  issuer := vals.issuer.getD issuer.issuer
  audience := vals.audience.getD issuer.audience
  algorithm := vals.algorithm.getD issuer.algorithm
  jwksUrl := vals.jwksUrl.getD issuer.jwksUrl
  sharedSecret := vals.sharedSecret.getD issuer.sharedSecret
  userClaim := vals.userClaim.getD issuer.userClaim
  userMatchField := vals.userMatchField.getD issuer.userMatchField
  leeway := vals.leeway.getD issuer.leeway
  profileId := vals.profileId.getD issuer.profileId

/-- `algorithm.startswith(HMAC_ALGORITHM_PREFIX)`. -/
def Issuer.isHmac (issuer : Issuer) : Bool := startsWith issuer.algorithm "HS"

/-- `_check_key_source`. -/
def Issuer.checkKeySource (issuer : Issuer) : Except Exn Unit :=
  if issuer.isHmac then
    if (filledIn issuer.sharedSecret).isSome then .ok () else .error (.python "ValidationError")
  else
    if (filledIn issuer.jwksUrl).isSome then .ok () else .error (.python "ValidationError")

/-! ## The process -/

/-- What a thread is in the middle of. -/
inductive Activity where
  | idle
  /-- `write` or `unlink`, with the issuers it has yet to invalidate. -/
  | invalidating (ids : List Nat)
  /-- `_resolve_signing_key` with the address of its client. -/
  | verifying (id : Nat) (client : Nat)

/-- A thread and its transaction. -/
structure Thread where
  /-- The issuers its transaction sees. -/
  issuers : Nat → Option Issuer
  /-- The issuers it has written. -/
  written : List Nat
  activity : Activity

variable (K : PyJwkClientClass)

structure Process where
  committed : Nat → Option Issuer
  threads : Nat → Thread
  /-- `_clients`. -/
  clients : KeyedCache Nat (Option String) K.Client
  now : Nat

/-- A call of `get_client` or `invalidate`. -/
abbrev CacheCall := KeyedCache.Call Nat (Option String)

inductive Action where
  | begin (thread : Nat)
  | create (thread : Nat) (id : Nat) (issuer : Issuer)
  | write (thread : Nat) (ids : List Nat) (vals : IssuerVals)
  | unlink (thread : Nat) (ids : List Nat)
  /-- The next `invalidate` of a `write` or an `unlink`. -/
  | invalidateNext (thread : Nat)
  /-- `get_client(issuer.id, issuer.jwks_url)` of a verification. -/
  | getClient (thread : Nat) (id : Nat)
  /-- `get_signing_key_from_jwt` of the same verification, and the keys every URL serves. -/
  | getSigningKey (thread : Nat) (token : String) (serves : Option String → Option (List String))
  | commit (thread : Nat)
  | rollback (thread : Nat)
  /-- A call by anyone else in the process. -/
  | call (call : CacheCall)
  | tick (seconds : Nat)

inductive Answer where
  | done
  | client (address : Nat)
  | signingKey (result : Except LibraryError (KeySet × String))
  | error (e : Exn)

variable {K}

/-- `PyJWKClient(jwks_url, lifespan=JWKS_CACHE_TTL_SECONDS)`. -/
def newClient (K : PyJwkClientClass) (url : Option String) : K.Client :=
  K.new url jwksCacheTtlSeconds

/-- What a fetch from a URL brings. -/
def fetchData (serves : Option String → Option (List String)) (url : Option String) :
    Option KeySet :=
  (serves url).map fun keys => ⟨url, keys⟩

/-- The loop over the records of a recordset. -/
def Activity.invalidations : List Nat → Activity
  | [] => idle
  | id :: ids => invalidating (id :: ids)

/-- The issuers of these ids are put to other values. -/
def Thread.put (thread : Thread) (ids : List Nat) (f : Option Issuer → Option Issuer) : Thread :=
  { thread with
    issuers := fun id => if id ∈ ids then f (thread.issuers id) else thread.issuers id
    written := thread.written ++ ids }

/-- A transaction at its start. -/
def Process.fresh (s : Process K) : Thread := ⟨s.committed, [], .idle⟩

def Process.setThread (s : Process K) (t : Nat) (thread : Thread) : Process K :=
  { s with threads := Function.update s.threads t thread }

/-- What a thread does when it is not in the middle of something. -/
def Process.whenIdle (s : Process K) (t : Nat) (k : Thread → Process K × Answer) :
    Process K × Answer :=
  match (s.threads t).activity with
  | .idle => k (s.threads t)
  | _ => (s, .done)

/-- The cache call an action makes. -/
def Action.cacheCall (s : Process K) : Action → Option CacheCall
  | invalidateNext t =>
    match (s.threads t).activity with
    | .invalidating (id :: _) => some (.invalidate id)
    | _ => none
  | getClient t id =>
    match (s.threads t).activity, (s.threads t).issuers id with
    | .idle, some issuer => if issuer.isHmac then none else some (.get id issuer.jwksUrl)
    | _, _ => none
  | call c => some c
  | _ => none

/-- The calls of the cache, the edits of the issuers and the verifications of one process. -/
def process (K : PyJwkClientClass) : Machine (Process K) Action Answer where
  step s a :=
    match a with
    | .begin t => s.whenIdle t fun _ => (s.setThread t s.fresh, .done)
    | .create t id issuer => s.whenIdle t fun thread =>
      match issuer.checkKeySource with
      | .ok _ => (s.setThread t (thread.put [id] fun _ => some issuer), .done)
      | .error e => (s, .error e)
    | .write t ids vals => s.whenIdle t fun thread =>
      let written := thread.put ids (Option.map vals.writeTo)
      match if vals.setsKeySource then (ids.filterMap written.issuers).forM Issuer.checkKeySource
          else .ok () with
      | .ok _ =>
        let pending := if vals.jwksUrl.isSome then ids else []
        (s.setThread t { written with activity := .invalidations pending }, .done)
      | .error e => (s, .error e)
    | .unlink t ids => s.whenIdle t fun thread =>
      (s.setThread t { thread.put ids (fun _ => none) with activity := .invalidations ids }, .done)
    | .invalidateNext t =>
      match (s.threads t).activity with
      | .invalidating (id :: ids) =>
        ({ s with clients := s.clients.invalidate id }.setThread t
          { s.threads t with activity := .invalidations ids }, .done)
      | _ => (s, .done)
    | .getClient t id =>
      match (Action.getClient t id).cacheCall s with
      | some (.get id url) =>
        let (clients, address) := s.clients.get (newClient K) id url
        ({ s with clients := clients }.setThread t
          { s.threads t with activity := .verifying id address }, .client address)
      | _ => (s, .done)
    | .getSigningKey t token serves =>
      match (s.threads t).activity with
      | .verifying _ address =>
        match s.clients.objects[address]? with
        | some client =>
          let result := fun client => K.getSigningKeyFromJwt (fetchData serves) s.now token client
          ({ s with clients := s.clients.modify address fun client => (result client).1 }.setThread t
            { s.threads t with activity := .idle }, .signingKey (result client).2)
        | none => (s, .done)
      | _ => (s, .done)
    | .commit t => s.whenIdle t fun thread =>
      let committed := fun id =>
        if id ∈ thread.written then thread.issuers id else s.committed id
      let s := { s with committed := committed }
      (s.setThread t s.fresh, .done)
    | .rollback t => (s.setThread t s.fresh, .done)
    | .call call =>
      let (clients, address) := s.clients.call (newClient K) call
      ({ s with clients := clients }, address.elim .done .client)
    | .tick seconds => ({ s with now := s.now + seconds }, .done)

/-- A process that has not cached a client yet. -/
def Process.start (K : PyJwkClientClass) (committed : Nat → Option Issuer) : Process K where
  committed := committed
  threads := fun _ => ⟨committed, [], .idle⟩
  clients := .empty
  now := 0

/-! ## One action -/

variable {s : Process K} {a : Action} {t id address : Nat} {issuer : Issuer}

theorem Process.whenIdle_clients {k : Thread → Process K × Answer}
    (h : (k (s.threads t)).1.clients = s.clients) : (s.whenIdle t k).1.clients = s.clients := by
  unfold whenIdle
  split
  · exact h
  · rfl

/-- A verification asks for a client of the URL that its transaction sees, or for none. -/
theorem cacheCall_getClient_cases (s : Process K) (t id : Nat) :
    (Action.getClient t id).cacheCall s = none ∨
      ∃ issuer, (s.threads t).issuers id = some issuer ∧
        (Action.getClient t id).cacheCall s = some (.get id issuer.jwksUrl) := by
  simp only [Action.cacheCall]
  split
  · next issuer _ hissuer =>
    split
    · exact Or.inl rfl
    · exact Or.inr ⟨issuer, hissuer, rfl⟩
  · exact Or.inl rfl

/-- An action makes its cache call, or has a client look for a key, or leaves the cache alone. -/
theorem next_clients_cases (s : Process K) (a : Action) :
    (∃ call, a.cacheCall s = some call ∧
      ((process K).next s a).clients = (s.clients.call (newClient K) call).1) ∨
    a.cacheCall s = none ∧ (((process K).next s a).clients = s.clients ∨
      ∃ serves token address, ((process K).next s a).clients =
        s.clients.modify address fun client =>
          (K.getSigningKeyFromJwt (fetchData serves) s.now token client).1) := by
  cases a with
  | begin t => exact Or.inr ⟨rfl, Or.inl (Process.whenIdle_clients rfl)⟩
  | create t id issuer =>
    refine Or.inr ⟨rfl, Or.inl (Process.whenIdle_clients ?_)⟩
    split <;> rfl
  | write t ids vals =>
    refine Or.inr ⟨rfl, Or.inl (Process.whenIdle_clients ?_)⟩
    dsimp only
    split <;> rfl
  | unlink t ids => exact Or.inr ⟨rfl, Or.inl (Process.whenIdle_clients rfl)⟩
  | commit t => exact Or.inr ⟨rfl, Or.inl (Process.whenIdle_clients rfl)⟩
  | rollback t => exact Or.inr ⟨rfl, Or.inl rfl⟩
  | tick seconds => exact Or.inr ⟨rfl, Or.inl rfl⟩
  | call call => exact Or.inl ⟨call, rfl, rfl⟩
  | invalidateNext t =>
    unfold Machine.next process Action.cacheCall
    dsimp only
    split
    · exact Or.inl ⟨_, rfl, rfl⟩
    · exact Or.inr ⟨rfl, Or.inl rfl⟩
  | getClient t id =>
    simp only [Machine.next, process]
    rcases cacheCall_getClient_cases s t id with hcall | ⟨issuer, -, hcall⟩
    · rw [hcall]
      exact Or.inr ⟨rfl, Or.inl rfl⟩
    · rw [hcall]
      exact Or.inl ⟨_, rfl, rfl⟩
  | getSigningKey t token serves =>
    refine Or.inr ⟨rfl, ?_⟩
    unfold Machine.next process
    dsimp only
    split
    · split
      · exact Or.inr ⟨_, token, _, rfl⟩
      · exact Or.inl rfl
    · exact Or.inl rfl

theorem next_clients_of_call {call : CacheCall} (h : a.cacheCall s = some call) :
    ((process K).next s a).clients = (s.clients.call (newClient K) call).1 := by
  rcases next_clients_cases s a with ⟨call', hcall, hclients⟩ | ⟨hnone, -⟩
  · obtain rfl := Option.some.inj (hcall.symm.trans h)
    exact hclients
  · exact absurd (h.symm.trans hnone) (by simp)

/-- What every cache call and every use of a client keeps of the cache, an action keeps. -/
theorem next_clients_induction {Q : KeyedCache Nat (Option String) K.Client → Prop}
    (hsame : Q s.clients)
    (hcall : ∀ call, a.cacheCall s = some call → Q (s.clients.call (newClient K) call).1)
    (huse : ∀ serves token address, Q (s.clients.modify address fun client =>
      (K.getSigningKeyFromJwt (fetchData serves) s.now token client).1)) :
    Q ((process K).next s a).clients := by
  rcases next_clients_cases s a with ⟨call, h, hclients⟩ | ⟨-, hclients | ⟨_, _, _, hclients⟩⟩
  · rw [hclients]
    exact hcall call h
  · rw [hclients]
    exact hsame
  · rw [hclients]
    exact huse _ _ _

theorem Activity.invalidations_ne_verifying (ids : List Nat) :
    invalidations ids ≠ .verifying id address := by
  intro h
  cases ids <;> cases h

@[simp] theorem Process.setThread_threads (s : Process K) (t t' : Nat) (thread : Thread) :
    (s.setThread t thread).threads t' = if t' = t then thread else s.threads t' := by
  unfold setThread
  dsimp only
  by_cases h : t' = t
  · rw [h, Function.update_self, if_pos rfl]
  · rw [Function.update_of_ne h, if_neg h]

/-- A thread that is put to something else than a verification verifies only what it did. -/
theorem Process.verifying_setThread {thread : Thread} {t' : Nat}
    (hthread : ∀ id address, thread.activity ≠ .verifying id address)
    (h : ((s.setThread t thread).threads t').activity = .verifying id address) :
    (s.setThread t thread).threads t' = s.threads t' := by
  rw [setThread_threads] at h ⊢
  split
  · next heq =>
    rw [if_pos heq] at h
    exact absurd h (hthread id address)
  · rfl

theorem Process.verifying_whenIdle {k : Thread → Process K × Answer} {t' : Nat}
    (hk : (s.threads t).activity = .idle →
      ((k (s.threads t)).1.threads t').activity = .verifying id address →
        (k (s.threads t)).1.threads t' = s.threads t')
    (h : ((s.whenIdle t k).1.threads t').activity = .verifying id address) :
    (s.whenIdle t k).1.threads t' = s.threads t' := by
  unfold whenIdle at h ⊢
  split
  · next hidle =>
    rw [hidle] at h
    exact hk hidle h
  · rfl

/-- A verification goes on as it was, or has just been given its client. -/
theorem next_verifying {t' : Nat}
    (h : (((process K).next s a).threads t').activity = .verifying id address) :
    ((process K).next s a).threads t' = s.threads t' ∨
      ((process K).next s a).threads t' = { s.threads t' with activity := .verifying id address } ∧
      ∃ issuer, (s.threads t').issuers id = some issuer ∧
        a.cacheCall s = some (.get id issuer.jwksUrl) ∧
        address = (s.clients.get (newClient K) id issuer.jwksUrl).2 := by
  cases a with
  | begin t =>
    refine Or.inl (Process.verifying_whenIdle (fun _ => ?_) h)
    exact Process.verifying_setThread (by intro id address h; cases h)
  | create t id issuer =>
    refine Or.inl (Process.verifying_whenIdle (fun hidle => ?_) h)
    split
    · refine Process.verifying_setThread fun id address hactivity => ?_
      exact Activity.noConfusion (hidle.symm.trans hactivity)
    · exact fun _ => rfl
  | write t ids vals =>
    refine Or.inl (Process.verifying_whenIdle (fun _ => ?_) h)
    dsimp only
    split
    · exact Process.verifying_setThread fun _ _ => Activity.invalidations_ne_verifying _
    · exact fun _ => rfl
  | unlink t ids =>
    refine Or.inl (Process.verifying_whenIdle (fun _ => ?_) h)
    exact Process.verifying_setThread fun _ _ => Activity.invalidations_ne_verifying _
  | commit t =>
    refine Or.inl (Process.verifying_whenIdle (fun _ => ?_) h)
    exact Process.verifying_setThread (by intro id address h; cases h)
  | rollback t => exact Or.inl (Process.verifying_setThread (by intro id address h; cases h) h)
  | tick seconds => exact Or.inl rfl
  | call call => exact Or.inl rfl
  | invalidateNext t =>
    refine Or.inl ?_
    simp only [Machine.next, process] at h ⊢
    split at h
    · exact Process.verifying_setThread (fun _ _ => Activity.invalidations_ne_verifying _) h
    · rfl
  | getClient t id' =>
    simp only [Machine.next, process] at h ⊢
    rcases cacheCall_getClient_cases s t id' with hcall | ⟨issuer, hissuer, hcall⟩
    · rw [hcall]
      exact Or.inl rfl
    · rw [hcall] at h ⊢
      dsimp only at h ⊢
      rw [Process.setThread_threads] at h ⊢
      split at h
      · next heq =>
        subst heq
        cases h
        rw [if_pos rfl]
        exact Or.inr ⟨rfl, issuer, hissuer, rfl, rfl⟩
      · next heq =>
        rw [if_neg heq]
        exact Or.inl rfl
  | getSigningKey t token serves =>
    refine Or.inl ?_
    simp only [Machine.next, process] at h ⊢
    split at h
    · split at h
      · exact Process.verifying_setThread (by intro id address h; cases h) h
      · rfl
    · rfl

theorem answer_of_get {url : Option String} (h : a.cacheCall s = some (.get id url)) :
    (process K).answer s a = .client (s.clients.get (newClient K) id url).2 := by
  cases a with
  | call call =>
    obtain rfl := Option.some.inj h
    rfl
  | getClient t id' =>
    simp only [Machine.answer, process]
    rw [h]
  | invalidateNext t =>
    simp only [Action.cacheCall] at h
    split at h
    · cases h
    · cases h
  | begin => cases h
  | create => cases h
  | write => cases h
  | unlink => cases h
  | getSigningKey => cases h
  | commit => cases h
  | rollback => cases h
  | tick => cases h

/-- A key comes from the client that the verification holds. -/
theorem answer_getSigningKey_ok {token : String} {serves : Option String → Option (List String)}
    {set : KeySet} {key : String}
    (h : (process K).answer s (.getSigningKey t token serves) = .signingKey (.ok (set, key))) :
    ∃ id address client, (s.threads t).activity = .verifying id address ∧
      s.clients.objects[address]? = some client ∧
      (K.getSigningKeyFromJwt (fetchData serves) s.now token client).2 = .ok (set, key) := by
  simp only [Machine.answer, process] at h
  split at h
  · next id address hactivity =>
    split at h
    · next client hclient => exact ⟨id, address, client, hactivity, hclient, Answer.signingKey.inj h⟩
    · cases h
  · cases h

/-! ## The invariant -/

/-- Clients are of the URL they are cached or held for, and hold keys of their own URL. -/
structure Process.Sound (s : Process K) : Prop where
  coherent : s.clients.Coherent K.uri
  held : ∀ t id address, (s.threads t).activity = .verifying id address →
    ∃ issuer, (s.threads t).issuers id = some issuer ∧
      s.clients.Bound K.uri address issuer.jwksUrl
  own : ∀ client ∈ s.clients.objects, ∀ set, K.keySet client = some set →
    set.url = K.uri client

theorem sound_start (committed : Nat → Option Issuer) : (Process.start K committed).Sound where
  coherent := KeyedCache.coherent_empty
  held := by
    intro t id address h
    cases h
  own := by
    intro client h
    cases h

/-- Keys that a client holds or fetches are of its URL. -/
theorem url_of_held_or_fetched {client : K.Client}
    {serves : Option String → Option (List String)} {set : KeySet}
    (hown : ∀ set, K.keySet client = some set → set.url = K.uri client)
    (h : K.keySet client = some set ∨ fetchData serves (K.uri client) = some set) :
    set.url = K.uri client := by
  rcases h with h | h
  · exact hown set h
  · obtain ⟨keys, -, rfl⟩ := Option.map_eq_some_iff.mp h
    rfl

variable (hK : K.Documented)
include hK

theorem uri_newClient (url : Option String) : K.uri (newClient K url) = url :=
  hK.uri_new url _

theorem bound_next {url : Option String} (h : s.clients.Bound K.uri address url) (a : Action) :
    ((process K).next s a).clients.Bound K.uri address url :=
  next_clients_induction (Q := fun clients => clients.Bound K.uri address url) h
    (fun call _ => h.call call) fun serves token _ =>
      h.modify (fun client => hK.uri_call (fetchData serves) s.now token client) _

theorem coherent_next (h : s.clients.Coherent K.uri) (a : Action) :
    ((process K).next s a).clients.Coherent K.uri :=
  next_clients_induction (Q := fun clients => clients.Coherent K.uri) h
    (fun call _ => h.call (uri_newClient hK) call) fun serves token _ =>
      h.modify (fun client => hK.uri_call (fetchData serves) s.now token client) _

/-- The keys a client holds are of its URL. -/
theorem own_next
    (h : ∀ client ∈ s.clients.objects, ∀ set, K.keySet client = some set → set.url = K.uri client)
    (a : Action) : ∀ client ∈ ((process K).next s a).clients.objects, ∀ set,
      K.keySet client = some set → set.url = K.uri client := by
  refine next_clients_induction (Q := fun clients => ∀ client ∈ clients.objects, ∀ set,
    K.keySet client = some set → set.url = K.uri client) h (fun call _ => ?_)
    fun serves token _ => ?_
  · -- a new client holds no keys
    refine KeyedCache.forall_call h (fun url set hset => ?_) call
    unfold newClient at hset
    rw [hK.keySet_new] at hset
    cases hset
  · refine KeyedCache.forall_modify h (fun client hown set hset => ?_) _
    rw [hK.uri_call]
    exact url_of_held_or_fetched hown (hK.keySet_call _ _ _ _ _ hset)

theorem sound_next (h : s.Sound) (a : Action) : ((process K).next s a).Sound where
  coherent := coherent_next hK h.coherent a
  own := own_next hK h.own a
  held := by
    intro t id address hactivity
    rcases next_verifying hactivity with hsame | ⟨hthread, issuer, hissuer, hcall, rfl⟩
    · rw [hsame] at hactivity ⊢
      obtain ⟨issuer, hissuer, hbound⟩ := h.held t id address hactivity
      exact ⟨issuer, hissuer, bound_next hK hbound a⟩
    · rw [hthread]
      refine ⟨issuer, hissuer, ?_⟩
      rw [next_clients_of_call hcall]
      exact KeyedCache.bound_call_get h.coherent (uri_newClient hK) id _

theorem sound_exec (committed : Nat → Option Issuer) (as : List Action) :
    ((process K).exec (Process.start K committed) as).Sound :=
  (process K).invariant (I := Process.Sound) (fun _ a h => sound_next hK h a)
    (sound_start committed) as

omit hK

/-! ## Sharing -/

/-- No cache call of the action takes the client of this issuer and URL away. -/
def Action.Spares (id : Nat) (url : Option String) (s : Process K) (a : Action) : Prop :=
  ∀ call, a.cacheCall s = some call → ¬ call.Disturbs id url

theorem entries_next {url : Option String} (h : s.clients.entries id = some (url, address))
    (ha : a.Spares id url s) : ((process K).next s a).clients.entries id = some (url, address) :=
  next_clients_induction (Q := fun clients => clients.entries id = some (url, address)) h
    (fun call hcall => KeyedCache.entries_call_of_not_disturbs h (ha call hcall)) fun _ _ _ => h

/-- Two calls for one issuer and URL share a client when every action between them spares it. -/
theorem answer_eq_of_spares {url : Option String} {b : Action} {middle : List Action}
    (ha : a.cacheCall s = some (.get id url))
    (hmiddle : (process K).Every (Action.Spares id url) ((process K).next s a) middle)
    (hb : b.cacheCall ((process K).exec ((process K).next s a) middle) = some (.get id url)) :
    (process K).answer ((process K).exec ((process K).next s a) middle) b =
      (process K).answer s a := by
  have hentry : ((process K).next s a).clients.entries id =
      some (url, (s.clients.get (newClient K) id url).2) := by
    rw [next_clients_of_call ha]
    exact KeyedCache.entries_get _ _ _ _
  have hkept := (process K).invariant_of_every
    (I := fun s' => s'.clients.entries id = some (url, (s.clients.get (newClient K) id url).2))
    (fun _ _ h hspares => entries_next h hspares) hentry middle hmiddle
  rw [answer_of_get hb, answer_of_get ha, KeyedCache.get_of_entry hkept]

/-- **The cache.**  In every run, a client is of the URL it is asked for, a verification uses keys
of the URL its transaction sees, and calls that nothing disturbs share a client. -/
theorem jwksCache_spec (K : PyJwkClientClass) (hK : K.Documented)
    (committed : Nat → Option Issuer) (before : List Action) :
    let s := (process K).exec (Process.start K committed) before
    (∀ a id url, a.cacheCall s = some (.get id url) →
      ∃ address, (process K).answer s a = .client address ∧
        ∀ later, ((process K).exec ((process K).next s a) later).clients.Bound K.uri address url) ∧
    (∀ t token serves set key,
      (process K).answer s (.getSigningKey t token serves) = .signingKey (.ok (set, key)) →
        ∃ id address issuer, (s.threads t).activity = .verifying id address ∧
          (s.threads t).issuers id = some issuer ∧ set.url = issuer.jwksUrl) ∧
    ∀ a middle b id url, a.cacheCall s = some (.get id url) →
      (process K).Every (Action.Spares id url) ((process K).next s a) middle →
      b.cacheCall ((process K).exec ((process K).next s a) middle) = some (.get id url) →
        (process K).answer ((process K).exec ((process K).next s a) middle) b =
          (process K).answer s a := by
  intro s
  have hsound : s.Sound := sound_exec hK committed before
  refine ⟨fun a id url ha => ?_, fun t token serves set key h => ?_, ?_⟩
  · refine ⟨_, answer_of_get ha, fun later => ?_⟩
    refine (process K).invariant (I := fun s' => s'.clients.Bound K.uri
      (s.clients.get (newClient K) id url).2 url) (fun _ b h => bound_next hK h b) ?_ later
    rw [next_clients_of_call ha]
    exact KeyedCache.bound_call_get hsound.coherent (uri_newClient hK) id url
  · obtain ⟨id, address, client, hactivity, hclient, hkey⟩ := answer_getSigningKey_ok h
    obtain ⟨issuer, hissuer, found, hfound, huri⟩ := hsound.held t id address hactivity
    obtain rfl := Option.some.inj (hfound.symm.trans hclient)
    refine ⟨id, address, issuer, hactivity, hissuer, ?_⟩
    rw [url_of_held_or_fetched (hsound.own found (List.mem_of_getElem? hclient))
      (hK.set_of_ok _ _ _ _ _ _ hkey), huri]
  · intro a middle b id url ha hmiddle hb
    exact answer_eq_of_spares ha hmiddle hb

/-! ## A client that follows the documentation -/

/-- A client with the key set it last fetched and when. -/
structure CachingClient where
  uri : Option String
  lifespan : Nat
  jwkSet : Option (KeySet × Nat)

/-- The key set of the client: fetched when it is asked for anew, or none is held that is young
enough. -/
def CachingClient.getJwkSet (fetch : Option String → Option KeySet) (now : Nat) (refresh : Bool)
    (client : CachingClient) : CachingClient × Option KeySet :=
  match client.jwkSet.filter fun held => !refresh && decide (now ≤ held.2 + client.lifespan) with
  | some (set, _) => (client, some set)
  | none => ({ client with jwkSet := (fetch client.uri).map (·, now) }, fetch client.uri)

/-- The key that the token names, if need be after another fetch. -/
def CachingClient.getSigningKey (fetch : Option String → Option KeySet) (now : Nat)
    (kid : String) (client : CachingClient) :
    CachingClient × Except LibraryError (KeySet × String) :=
  let (held, set) := client.getJwkSet fetch now false
  match set.filter (kid ∈ ·.keys) with
  | some set => (held, .ok (set, kid))
  | none =>
    let (refreshed, set) := held.getJwkSet fetch now true
    match set.filter (kid ∈ ·.keys) with
    | some set => (refreshed, .ok (set, kid))
    | none => (refreshed, .error .pyJwkClientError)

def cachingClients : PyJwkClientClass where
  Client := CachingClient
  new := fun uri lifespan => ⟨uri, lifespan, none⟩
  uri := CachingClient.uri
  keySet := fun client => client.jwkSet.map Prod.fst
  getSigningKeyFromJwt := CachingClient.getSigningKey

/-- A client of the same URL whose keys are those held before, or fetched from the URL. -/
structure CachingClient.Follows (fetch : Option String → Option KeySet)
    (before after : CachingClient) : Prop where
  uri : after.uri = before.uri
  keySet : ∀ set, after.jwkSet.map Prod.fst = some set →
    before.jwkSet.map Prod.fst = some set ∨ fetch before.uri = some set

theorem CachingClient.Follows.trans {fetch : Option String → Option KeySet}
    {a b c : CachingClient} (hab : Follows fetch a b) (hbc : Follows fetch b c) :
    Follows fetch a c where
  uri := hbc.uri.trans hab.uri
  keySet := by
    intro set hset
    rcases hbc.keySet set hset with hheld | hfetched
    · exact hab.keySet set hheld
    · rw [hab.uri] at hfetched
      exact Or.inr hfetched

theorem CachingClient.getJwkSet_follows (fetch : Option String → Option KeySet) (now : Nat)
    (refresh : Bool) (client : CachingClient) :
    Follows fetch client (client.getJwkSet fetch now refresh).1 ∧
      ∀ set, (client.getJwkSet fetch now refresh).2 = some set →
        client.jwkSet.map Prod.fst = some set ∨ fetch client.uri = some set := by
  unfold getJwkSet
  split
  · next set since hheld =>
    have hheld := (Option.filter_eq_some_iff.mp hheld).1
    refine ⟨⟨rfl, fun _ h => Or.inl h⟩, fun set' h => Or.inl ?_⟩
    rw [hheld]
    exact h
  · refine ⟨⟨rfl, fun set h => Or.inr ?_⟩, fun set h => Or.inr h⟩
    simpa using h

theorem CachingClient.getSigningKey_follows (fetch : Option String → Option KeySet) (now : Nat)
    (kid : String) (client : CachingClient) :
    Follows fetch client (client.getSigningKey fetch now kid).1 ∧
      ∀ set key, (client.getSigningKey fetch now kid).2 = .ok (set, key) →
        client.jwkSet.map Prod.fst = some set ∨ fetch client.uri = some set := by
  obtain ⟨hheld, hset⟩ := client.getJwkSet_follows fetch now false
  obtain ⟨hrefreshed, hset'⟩ :=
    (client.getJwkSet fetch now false).1.getJwkSet_follows fetch now true
  unfold getSigningKey
  dsimp only
  split
  · next set hfilter =>
    refine ⟨hheld, fun set' key h => ?_⟩
    cases h
    exact hset set (Option.filter_eq_some_iff.mp hfilter).1
  · split
    · next set hfilter =>
      refine ⟨hheld.trans hrefreshed, fun set' key h => ?_⟩
      cases h
      rcases hset' set (Option.filter_eq_some_iff.mp hfilter).1 with h | h
      · exact hheld.keySet set h
      · rw [hheld.uri] at h
        exact Or.inr h
    · refine ⟨hheld.trans hrefreshed, fun set key h => ?_⟩
      cases h

theorem cachingClients_documented : cachingClients.Documented where
  uri_new := fun _ _ => rfl
  keySet_new := fun _ _ => rfl
  uri_call := fun fetch now token client => (client.getSigningKey_follows fetch now token).1.uri
  keySet_call := fun fetch now token client =>
    (client.getSigningKey_follows fetch now token).1.keySet
  set_of_ok := fun fetch now token client => (client.getSigningKey_follows fetch now token).2

/-- One issuer, whose keys are at the first URL. -/
def oneIssuer : Nat → Option Issuer
  | 1 => some ⟨true, "https://id", "api", "RS256", some "https://a/keys", none, "sub", .login, 0, none⟩
  | _ => none

/-- A thread verifies with the old URL while another moves the issuer to the second URL. -/
def movingIssuer : List Action :=
  [.begin 0, .write 1 [1] { jwksUrl := some (some "https://b/keys") }, .invalidateNext 1,
    .getClient 0 1, .commit 1, .begin 2]

/-- What the first thread does meanwhile, and a call of another database. -/
def meanwhile : List Action :=
  [.getSigningKey 0 "k1" fun url => if url = some "https://a/keys" then some ["k1"] else none,
    .call (.get 7 none), .begin 3]

theorem jwksCache_spec_movingIssuer :
    let s := (process cachingClients).exec (Process.start cachingClients oneIssuer) movingIssuer
    let s' := (process cachingClients).next s (.getClient 2 1)
    (∃ address, (process cachingClients).answer s (.getClient 2 1) = .client address ∧
      ∀ later, ((process cachingClients).exec s' later).clients.Bound cachingClients.uri address
        (some "https://b/keys")) ∧
    (process cachingClients).answer ((process cachingClients).exec s' meanwhile) (.getClient 3 1) =
      (process cachingClients).answer s (.getClient 2 1) := by
  intro s s'
  obtain ⟨hbound, -, hshared⟩ :=
    jwksCache_spec cachingClients cachingClients_documented oneIssuer movingIssuer
  refine ⟨hbound (.getClient 2 1) 1 (some "https://b/keys") (by rfl), ?_⟩
  refine hshared (.getClient 2 1) meanwhile (.getClient 3 1) 1 (some "https://b/keys") (by rfl)
    ⟨?_, ?_, ?_, trivial⟩ (by rfl)
  · intro call h
    cases h
  · intro call h
    cases h
    decide
  · intro call h
    cases h

end SsiRest.Jwt
