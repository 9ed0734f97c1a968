import SsiRestApi.Oauth.Client
import SsiRestApi.Orm

/-!
# OAuth2 tokens

`ssi_rest_oauth_token`: issuing, the two lookups, PKCE, revocation and the
vacuum.  The only update any of them makes to a row is to set `revoked`.
-/

namespace SsiRest.Oauth

open Py Tx

inductive TokenType where
  | code
  | access
  | refresh
  deriving DecidableEq

inductive ChallengeMethod where
  | S256
  | plain
  deriving DecidableEq

/-- `ssi_rest_oauth_token`. -/
structure Token where
  clientId : Nat
  userId : Option Nat
  tokenIndex : String
  tokenHash : String
  tokenType : TokenType
  scope : String
  expirationDate : Int
  revoked : Bool
  codeChallenge : Option String
  codeChallengeMethod : Option ChallengeMethod
  deriving DecidableEq

/-- `write({"revoked": True})`. -/
inductive TokenWrite where
  | revoked
  deriving DecidableEq

instance : Update TokenWrite Token where
  update _ t := { t with revoked := true }

@[simp] theorem update_token (w : TokenWrite) (t : Token) :
    update w t = { t with revoked := true } := rfl

abbrev OauthM := Prog Clients Token TokenWrite Exn

def tokenPrefix : String := "sot_"

def tokenIndexSize : Nat := 12

def authCodeLifetimeSeconds : Int := 300

/-- The raw value made of the `i`-th random text. -/
def rawValue (P : Platform) (i : Nat) : String := P.rawValue tokenPrefix i

theorem rawValue_ne (P : Platform) (i : Nat) : rawValue P i ≠ "" :=
  P.rawValue_ne (by decide) i

theorem rawValue_inj {P : Platform} (hP : P.Exact) {i j : Nat}
    (h : rawValue P i = rawValue P j) : i = j := hP.rawValue_inj h

/-! ## Issuing -/

/-- The row `_issue` creates from the `i`-th random text at time `now`. -/
def newToken (P : Platform) (i : Nat) (now : Int) (clientId : Nat) (userId : Option Nat)
    (tokenType : TokenType) (scope : Json) (lifetimeSeconds : Int)
    (codeChallenge : Option Json) (codeChallengeMethod : Option ChallengeMethod) : Token where
  clientId := clientId
  userId := userId
  tokenIndex := slice (rawValue P i) tokenIndexSize
  tokenHash := P.crypt.hash i (rawValue P i)
  tokenType := tokenType
  scope := P.charColumn (scope.orElse (.str ""))
  expirationDate := now + lifetimeSeconds
  revoked := false
  codeChallenge := codeChallenge.map P.charColumn
  codeChallengeMethod := codeChallengeMethod

/-- `_issue`, without the record its callers do not use. -/
def issue (P : Platform) (client : Row Client) (user : Option Nat) (tokenType : TokenType)
    (scope : Json) (lifetimeSeconds : Int) (codeChallenge : Option Json)
    (codeChallengeMethod : Option ChallengeMethod) : OauthM String := do
  let i ← getDraw
  let now ← getNow
  let _record ← createRow
    (newToken P i now client.id user tokenType scope lifetimeSeconds codeChallenge
      codeChallengeMethod)
  pure (rawValue P i)

/-! ## Lookup -/

/-- The rows a raw value may belong to are those with its index that meet `cond`; the
first whose hash verifies is the one.  Text and lists can be cut to an index, and no
row has a list for its index. -/
def findByRaw (P : Platform) (rows : List (Row Token)) (raw : Json) (cond : Token → Bool) :
    Except Exn (Option (Row Token)) :=
  if !raw.truthy then .ok none
  else match raw with
    | .str s =>
      P.crypt.firstMatch hashError (fun r => some r.val.tokenHash) s
        (rows.filter fun r => r.val.tokenIndex == slice s tokenIndexSize && cond r.val)
    | .arr _ => .ok none
    | _ => .error (.python "TypeError")

/-- `_lookup(raw_value, token_type, client)`. -/
def lookup (P : Platform) (rows : List (Row Token)) (now : Int) (raw : Json)
    (tokenType : TokenType) (client : Option Nat) : Except Exn (Option (Row Token)) :=
  findByRaw P rows raw fun t =>
    t.tokenType == tokenType && !t.revoked && decide (t.expirationDate > now) &&
      client.all fun id => t.clientId == id

/-- `_lookup_for_revoke(raw_value, client)`. -/
def lookupForRevoke (P : Platform) (rows : List (Row Token)) (raw : Json) (client : Nat) :
    Except Exn (Option (Row Token)) :=
  findByRaw P rows raw fun t => t.tokenType != .code && t.clientId == client

/-- What a lookup finds: a row that meets its condition and whose hash verifies. -/
theorem findByRaw_some {P : Platform} {rows : List (Row Token)} {raw : Json}
    {cond : Token → Bool} {r : Row Token} (h : findByRaw P rows raw cond = .ok (some r)) :
    r ∈ rows ∧ cond r.val = true ∧
      ∃ s, raw = .str s ∧ P.crypt.verify s r.val.tokenHash = some true := by
  unfold findByRaw at h
  split at h
  · cases h
  · split at h
    · next s _ =>
      obtain ⟨hmem, hcheck⟩ := CryptContext.mem_of_firstMatch h
      obtain ⟨hr, hcond⟩ := List.mem_filter.mp hmem
      obtain ⟨hash, hh, -, hv⟩ := CryptContext.check_true_iff.mp hcheck
      cases hh
      exact ⟨hr, ((Bool.and_eq_true _ _).mp hcond).2, s, rfl, hv⟩
    · cases h
    · cases h

/-- A lookup of text finds the first candidate whose hash verifies. -/
theorem findByRaw_str_iff {P : Platform} {rows : List (Row Token)} {raw : String}
    {cond : Token → Bool} {r : Row Token} :
    findByRaw P rows (.str raw) cond = .ok (some r) ↔ raw ≠ "" ∧
      P.crypt.Selects (fun r : Row Token => some r.val.tokenHash) raw
        (rows.filter fun r => r.val.tokenIndex == slice raw tokenIndexSize && cond r.val) r := by
  unfold findByRaw
  by_cases hraw : raw = ""
  · simp [hraw]
  · simp [hraw, CryptContext.firstMatch_iff_selects]

/-- A row that a lookup finds is live. -/
structure Live (now : Int) (tokenType : TokenType) (client : Option Nat) (t : Token) : Prop where
  tokenType : t.tokenType = tokenType
  unrevoked : t.revoked = false
  unexpired : now < t.expirationDate
  client : ∀ id ∈ client, t.clientId = id

theorem Live.ne_access {now : Int} {tokenType : TokenType} {client : Option Nat} {t : Token}
    (h : Live now tokenType client t) (hne : tokenType ≠ .access) : t.tokenType ≠ .access := by
  rw [h.tokenType]
  exact hne

theorem lookup_some {P : Platform} {rows : List (Row Token)} {now : Int} {raw : Json}
    {tokenType : TokenType} {client : Option Nat} {r : Row Token}
    (h : lookup P rows now raw tokenType client = .ok (some r)) :
    r ∈ rows ∧ Live now tokenType client r.val ∧
      ∃ s, raw = .str s ∧ P.crypt.verify s r.val.tokenHash = some true := by
  obtain ⟨hr, hc, hs⟩ := findByRaw_some h
  simp only [Bool.and_eq_true, beq_iff_eq, Bool.not_eq_true', decide_eq_true_eq,
    Option.all_eq_true] at hc
  obtain ⟨⟨⟨ht, hrev⟩, hexp⟩, hcl⟩ := hc
  exact ⟨hr, ⟨ht, hrev, hexp, fun id hid => hcl id hid⟩, hs⟩

theorem lookupForRevoke_some {P : Platform} {rows : List (Row Token)} {raw : Json} {client : Nat}
    {r : Row Token} (h : lookupForRevoke P rows raw client = .ok (some r)) :
    r ∈ rows ∧ r.val.tokenType ≠ .code ∧ r.val.clientId = client ∧
      ∃ s, raw = .str s ∧ P.crypt.verify s r.val.tokenHash = some true := by
  obtain ⟨hr, hc, hs⟩ := findByRaw_some h
  simp only [Bool.and_eq_true, bne_iff_ne, ne_eq, beq_iff_eq] at hc
  exact ⟨hr, hc.1, hc.2, hs⟩

/-! ## PKCE -/

/-- `secrets.compare_digest(a, b)` on text: ASCII only. -/
def compareDigest (a : Json) (b : String) : Except Exn Bool :=
  match a with
  | .str s =>
    if (encodeAscii s).isSome && (encodeAscii b).isSome then .ok (s == b)
    else .error (.python "TypeError")
  | _ => .error (.python "TypeError")

/-- The S256 transform of a verifier. -/
def s256 (codeVerifier : Json) : Except Exn String :=
  match codeVerifier with
  | .str s =>
    match encodeAscii s with
    | some bytes => .ok (String.ofList (urlsafeB64encodeUnpadded (sha256 bytes)))
    | none => .error (.python "UnicodeEncodeError")
  | _ => .error (.python "AttributeError")

/-- `_check_pkce(code_verifier)`. -/
def Token.checkPkce (t : Token) (codeVerifier : Json) : Except Exn Bool :=
  match t.codeChallenge with
  | none => .ok false
  | some challenge =>
    if challenge = "" || !codeVerifier.truthy then .ok false
    else if t.codeChallengeMethod = some .plain then compareDigest codeVerifier challenge
    else match s256 codeVerifier with
      | .ok computed => compareDigest (.str computed) challenge
      | .error e => .error e

/-! ## Revocation from the list view, and the vacuum -/

/-- `ssi_rest_oauth_token`, with its access list and record rule. -/
def tokenModel : Model Token where
  name := "ssi_rest_oauth_token"
  security :=
    { access :=
        [⟨some .user, [.read]⟩,
         ⟨some .system, [.read, .write, .create, .unlink]⟩]
      rules := [⟨[], [.read, .write, .create, .unlink], fun u t => t.userId == some u.uid⟩] }

/-- `action_revoke` of user `u` on the rows `ids`. -/
def actionRevoke (u : User) (ids : List Nat) : OauthM Unit :=
  Orm.write tokenModel ⟨u, false⟩ ids .revoked

/-- `_gc_expired_oauth_token`. -/
def gcExpiredOauthToken : OauthM Unit := do
  let rows ← getRows
  let now ← getNow
  unlinkAll ((rows.filter fun r => r.val.expirationDate < now).map (·.id))

end SsiRest.Oauth
