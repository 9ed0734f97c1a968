import SsiRestApi.Jwt

/-!
# One broken issuer and the others

`_rest_auth_verify` goes on to the next candidate after a `RestAuthError`, and
`_resolve_signing_key` turns only a `PyJWKClientError` into one.  A key set the library
cannot read raises something else (`PyJWKSetError`, `JSONDecodeError`), which ends the
loop.
-/

namespace SsiRest.Jwt

open Py Tx

/-- Decoding raises only the library's own errors. -/
structure Library.DecodeRaisesPyJwtError (L : Library) : Prop where
  unverified : ∀ token type, L.decodeUnverified token ≠ .error (.other type)
  verified : ∀ now token key issuer type, L.decode now token key issuer ≠ .error (.other type)

variable (L : Library)

/-- The issuer's key verifies the token and a claim of it names the user. -/
def AcceptsAs (users : Accounts) (now : Int) (token : String) (issuer : Row Issuer)
    (user : Row Account) : Prop :=
  ∃ key claims,
    resolveSigningKey L issuer token = .ok key ∧
    L.decode now token key issuer.val = .ok claims ∧
    (claims.get issuer.val.userClaim).truthy = true ∧
    searchUser users (issuer.val.userMatchField.matches (claims.get issuer.val.userClaim)) =
      some user

/-- The issuer accepts the token as some user's. -/
def Accepts (users : Accounts) (now : Int) (token : String) (issuer : Row Issuer) : Prop :=
  ∃ user, AcceptsAs L users now token issuer user

/-- The issuer's key set raises an error `_resolve_signing_key` lets through. -/
def Breaks (token : String) (issuer : Row Issuer) : Prop :=
  startsWith issuer.val.algorithm "HS" = false ∧
    ∃ e, L.signingKey issuer.id issuer.val.jwksUrl token = .error e ∧ e ≠ .pyJwkClientError

/-- A token is accepted when an issuer it names accepts it, and is refused with a 401
otherwise. -/
def DisjunctionOverIssuers (users : Accounts) (issuers : List (Row Issuer)) (now : Int)
    (token : String) : Prop :=
  ((∃ result, restAuthVerify L users issuers now token = .ok result) ↔
      ∃ claims, L.decodeUnverified token = .ok claims ∧
        ∃ issuer ∈ candidates issuers claims, Accepts L users now token issuer) ∧
    ((¬ ∃ result, restAuthVerify L users issuers now token = .ok result) →
      restAuthVerify L users issuers now token = .error invalidToken)

/-- Every issuer the token names whose key set breaks comes after one that accepts the token. -/
def BrokenComeLate (users : Accounts) (issuers : List (Row Issuer)) (now : Int)
    (token : String) : Prop :=
  ∀ claims, L.decodeUnverified token = .ok claims →
    ∀ before issuer after, candidates issuers claims = before ++ issuer :: after →
      Breaks L token issuer → ∃ i ∈ before, Accepts L users now token i

variable {L}

/-- The result of an issuer that accepts the token. -/
def issuerResult (issuer : Row Issuer) (user : Row Account) : RestAuthResult :=
  { RestAuthResult.ofUser user.id "jwt" with profileIds := issuer.val.profileId.toList }

theorem verifyAgainstIssuer_eq_iff {users : Accounts} {now : Int} {token : String}
    {issuer : Row Issuer} {result : RestAuthResult} :
    verifyAgainstIssuer L users now token issuer = .ok result ↔
      ∃ user, AcceptsAs L users now token issuer user ∧ result = issuerResult issuer user := by
  cases hkey : resolveSigningKey L issuer token with
  | error e => simp [verifyAgainstIssuer, AcceptsAs, hkey]
  | ok key =>
    cases hdecode : L.decode now token key issuer.val with
    | error e => cases e <;> simp [verifyAgainstIssuer, AcceptsAs, catchPyJwtError, hkey, hdecode]
    | ok claims =>
      have hrun : verifyAgainstIssuer L users now token issuer =
          resolveUserResult users issuer claims := by
        simp [verifyAgainstIssuer, catchPyJwtError, hkey, hdecode]
      have haccepts : ∀ user, AcceptsAs L users now token issuer user ↔
          (claims.get issuer.val.userClaim).truthy = true ∧ searchUser users
            (issuer.val.userMatchField.matches (claims.get issuer.val.userClaim)) = some user := by
        simp [AcceptsAs, hkey, hdecode]
      rw [hrun]
      simp only [haccepts, resolveUserResult]
      cases (claims.get issuer.val.userClaim).truthy with
      | false => simp
      | true =>
        cases searchUser users
            (issuer.val.userMatchField.matches (claims.get issuer.val.userClaim)) with
        | none => simp
        | some user => simp [issuerResult, eq_comm]

theorem verifyAgainstIssuer_ok_iff {users : Accounts} {now : Int} {token : String}
    {issuer : Row Issuer} :
    (∃ result, verifyAgainstIssuer L users now token issuer = .ok result) ↔
      Accepts L users now token issuer := by
  simp [verifyAgainstIssuer_eq_iff, Accepts]

theorem catchPyJwtError_of_known {α : Type} {x : Except LibraryError α}
    (h : ∀ type, x ≠ .error (.other type)) :
    (∃ a, x = .ok a ∧ catchPyJwtError x = .ok a) ∨
      (∃ e, x = .error e) ∧ catchPyJwtError x = .error invalidToken := by
  cases x with
  | ok a => exact Or.inl ⟨a, rfl, rfl⟩
  | error e =>
    cases e with
    | pyJwtError => exact Or.inr ⟨⟨_, rfl⟩, rfl⟩
    | pyJwkClientError => exact Or.inr ⟨⟨_, rfl⟩, rfl⟩
    | other type => exact absurd rfl (h type)

/-- An issuer whose key set breaks raises what its key set does. -/
theorem verifyAgainstIssuer_of_breaks (users : Accounts) (now : Int) {token : String}
    {issuer : Row Issuer} (h : Breaks L token issuer) :
    ∃ type, verifyAgainstIssuer L users now token issuer = .error (.python type) := by
  obtain ⟨halgorithm, e, hkey, hne⟩ := h
  unfold verifyAgainstIssuer resolveSigningKey
  rw [halgorithm, hkey]
  cases e with
  | pyJwtError => exact ⟨_, rfl⟩
  | pyJwkClientError => exact absurd rfl hne
  | other type => exact ⟨_, rfl⟩

/-- Any other issuer returns a result or raises the 401. -/
theorem verifyAgainstIssuer_of_not_breaks (hL : L.DecodeRaisesPyJwtError) {users : Accounts}
    {now : Int} {token : String} {issuer : Row Issuer} (h : ¬ Breaks L token issuer) :
    (∃ result, verifyAgainstIssuer L users now token issuer = .ok result) ∨
      verifyAgainstIssuer L users now token issuer = .error invalidToken := by
  have hkey : (∃ key, resolveSigningKey L issuer token = .ok key) ∨
      resolveSigningKey L issuer token = .error invalidToken := by
    unfold resolveSigningKey
    cases halgorithm : startsWith issuer.val.algorithm "HS" with
    | true => exact Or.inl ⟨_, rfl⟩
    | false =>
      cases hsigning : L.signingKey issuer.id issuer.val.jwksUrl token with
      | ok key => exact Or.inl ⟨_, rfl⟩
      | error e =>
        by_cases he : e = .pyJwkClientError
        · subst he
          exact Or.inr rfl
        · exact absurd ⟨halgorithm, e, hsigning, he⟩ h
  unfold verifyAgainstIssuer
  rcases hkey with ⟨key, hkey⟩ | hkey
  · rw [hkey]
    rcases catchPyJwtError_of_known (hL.verified now token key issuer.val) with
      ⟨claims, -, hcatch⟩ | ⟨-, hcatch⟩
    · simp only [hcatch]
      unfold resolveUserResult
      dsimp only
      split
      · exact Or.inr rfl
      · split
        · exact Or.inr rfl
        · exact Or.inl ⟨_, rfl⟩
    · simp [hcatch]
  · rw [hkey]
    exact Or.inr rfl

/-- One round of the loop. -/
theorem verifyAgainst_cons {users : Accounts} {now : Int} {token : String} {issuer : Row Issuer}
    (issuers : List (Row Issuer))
    (h : verifyAgainstIssuer L users now token issuer = .error invalidToken) :
    verifyAgainst L users now token (issuer :: issuers) =
      verifyAgainst L users now token issuers := by
  rw [verifyAgainst, h]
  rfl

/-- Broken key sets that come late leave the loop the disjunction it is meant to be. -/
theorem verifyAgainst_of_brokenLate (hL : L.DecodeRaisesPyJwtError) {users : Accounts}
    {now : Int} {token : String} {issuers : List (Row Issuer)}
    (h : ∀ before issuer after, issuers = before ++ issuer :: after → Breaks L token issuer →
      ∃ i ∈ before, Accepts L users now token i) :
    (∃ result, verifyAgainst L users now token issuers = .ok result) ∧
        (∃ issuer ∈ issuers, Accepts L users now token issuer) ∨
      verifyAgainst L users now token issuers = .error invalidToken ∧
        ¬ ∃ issuer ∈ issuers, Accepts L users now token issuer := by
  induction issuers with
  | nil => exact Or.inr ⟨rfl, by simp⟩
  | cons i issuers ih =>
    have hfirst : ¬ Breaks L token i := by
      intro hbreaks
      obtain ⟨j, hj, -⟩ := h [] i issuers rfl hbreaks
      simp at hj
    rcases verifyAgainstIssuer_of_not_breaks hL hfirst with ⟨result, hok⟩ | hrefused
    · refine Or.inl ⟨⟨result, by rw [verifyAgainst, hok]⟩, i, List.mem_cons_self, ?_⟩
      exact verifyAgainstIssuer_ok_iff.mp ⟨result, hok⟩
    · have hi : ¬ Accepts L users now token i := by
        intro haccepts
        obtain ⟨result, hok⟩ := verifyAgainstIssuer_ok_iff.mpr haccepts
        cases hok.symm.trans hrefused
      have htail : ∀ before issuer after, issuers = before ++ issuer :: after →
          Breaks L token issuer → ∃ j ∈ before, Accepts L users now token j := by
        intro before issuer after hsplit hbreaks
        obtain ⟨j, hj, haccepts⟩ := h (i :: before) issuer after (by rw [hsplit]; rfl) hbreaks
        rcases List.mem_cons.mp hj with rfl | hj
        · exact absurd haccepts hi
        · exact ⟨j, hj, haccepts⟩
      have hsplit : (∃ issuer ∈ i :: issuers, Accepts L users now token issuer) ↔
          ∃ issuer ∈ issuers, Accepts L users now token issuer := by
        simp [hi]
      rw [verifyAgainst_cons issuers hrefused, hsplit]
      exact ih htail

/-- A key set that breaks before any issuer accepts ends the loop with its error. -/
theorem verifyAgainst_of_breaks (hL : L.DecodeRaisesPyJwtError) {users : Accounts} {now : Int}
    {token : String} {before : List (Row Issuer)} {issuer : Row Issuer}
    (hbreaks : Breaks L token issuer) (hnone : ∀ i ∈ before, ¬ Accepts L users now token i)
    (after : List (Row Issuer)) :
    ∃ type, verifyAgainst L users now token (before ++ issuer :: after) =
      .error (.python type) := by
  induction before with
  | nil =>
    obtain ⟨type, hraise⟩ := verifyAgainstIssuer_of_breaks users now hbreaks
    exact ⟨type, by rw [List.nil_append, verifyAgainst, hraise]⟩
  | cons i before ih =>
    by_cases hi : Breaks L token i
    · obtain ⟨type, hraise⟩ := verifyAgainstIssuer_of_breaks users now hi
      exact ⟨type, by rw [List.cons_append, verifyAgainst, hraise]⟩
    · rcases verifyAgainstIssuer_of_not_breaks hL hi with hok | hrefused
      · exact absurd (verifyAgainstIssuer_ok_iff.mp hok) (hnone i List.mem_cons_self)
      · rw [List.cons_append, verifyAgainst_cons _ hrefused]
        exact ih fun j hj => hnone j (List.mem_cons_of_mem _ hj)

/-- Verification is the disjunction over the issuers exactly when no key set breaks before an
issuer accepts. -/
theorem disjunctionOverIssuers_iff (hL : L.DecodeRaisesPyJwtError) (users : Accounts)
    (issuers : List (Row Issuer)) (now : Int) (token : String) :
    DisjunctionOverIssuers L users issuers now token ↔
      BrokenComeLate L users issuers now token := by
  unfold DisjunctionOverIssuers BrokenComeLate restAuthVerify peekUnverifiedClaims
  rcases catchPyJwtError_of_known (hL.unverified token) with
    ⟨claims, hclaims, hcatch⟩ | ⟨⟨e, hclaims⟩, hcatch⟩
  · rw [hcatch, hclaims]
    simp only [Except.ok.injEq, exists_eq_left', forall_eq']
    constructor
    · intro ⟨hiff, hrefuse⟩ before issuer after hsplit hbreaks
      by_contra hnone
      have hnone' : ∀ i ∈ before, ¬ Accepts L users now token i :=
        fun i hi haccepts => hnone ⟨i, hi, haccepts⟩
      obtain ⟨type, hraise⟩ := verifyAgainst_of_breaks hL hbreaks hnone' after
      rw [← hsplit] at hraise
      have hrefused := hrefuse fun ⟨result, hok⟩ => by cases hok.symm.trans hraise
      cases hrefused.symm.trans hraise
    · intro hlate
      rcases verifyAgainst_of_brokenLate hL hlate with ⟨hok, haccepts⟩ | ⟨hrefused, hnone⟩
      · exact ⟨iff_of_true hok haccepts, fun hno => absurd hok hno⟩
      · have hno : ¬ ∃ result, verifyAgainst L users now token (candidates issuers claims) =
            .ok result := fun ⟨result, hok⟩ => by cases hok.symm.trans hrefused
        exact ⟨iff_of_false hno hnone, fun _ => hrefused⟩
  · rw [hcatch, hclaims]
    simp

/-! ## Two issuers of one name -/

/-- A library for which every token is the employee's, under the secret of the second issuer, and
whose key sets are not JSON. -/
def sampleLibrary : Library where
  decodeUnverified _ := .ok [("iss", .str "https://idp.example.com"), ("sub", .str "employee")]
  decode _ _ key _ :=
    if key = .sharedSecret (some "secret") then .ok [("sub", .str "employee")]
    else .error .pyJwtError
  signingKey _ _ _ := .error (.other "JSONDecodeError")

theorem sampleLibrary_decodeRaisesPyJwtError : sampleLibrary.DecodeRaisesPyJwtError where
  unverified _ _ h := by cases h
  verified _ _ key _ _ h := by
    unfold sampleLibrary at h
    dsimp only at h
    split at h <;> cases h

/-- An issuer with a key set. -/
def keySetIssuer : Row Issuer :=
  ⟨1, true, "https://idp.example.com", "api", "RS256", some "https://idp.example.com/jwks", none,
    "sub", .login, 0, none⟩

/-- An issuer with a secret. -/
def sharedSecretIssuer : Row Issuer :=
  ⟨2, true, "https://idp.example.com", "api", "HS256", none, some "secret", "sub", .login, 0,
    none⟩

def employees : Accounts := [⟨7, "employee", none, true, [.user], 1, [1], false⟩]

theorem accepts_sharedSecretIssuer (now : Int) (token : String) :
    Accepts sampleLibrary employees now token sharedSecretIssuer :=
  ⟨_, .sharedSecret (some "secret"), [("sub", .str "employee")], by rfl, by rfl, by rfl, by rfl⟩

/-- Behind the issuer with the secret, the broken key set does no harm. -/
theorem disjunctionOverIssuers_secretFirst :
    DisjunctionOverIssuers sampleLibrary employees [sharedSecretIssuer, keySetIssuer] 0
      "a.b.c" := by
  refine (disjunctionOverIssuers_iff sampleLibrary_decodeRaisesPyJwtError employees _ 0 _).mpr ?_
  intro claims hclaims before issuer after hsplit hbreaks
  cases hclaims
  have hcandidates : candidates [sharedSecretIssuer, keySetIssuer]
      [("iss", .str "https://idp.example.com"), ("sub", .str "employee")] =
        [sharedSecretIssuer, keySetIssuer] := by rfl
  rw [hcandidates] at hsplit
  cases before with
  | nil =>
    cases hsplit
    exact absurd hbreaks.1 (by decide)
  | cons i before =>
    obtain ⟨rfl, -⟩ := List.cons.inj hsplit
    exact ⟨_, List.mem_cons_self, accepts_sharedSecretIssuer 0 "a.b.c"⟩

/-- Before it, the broken key set is the end of the loop. -/
theorem not_disjunctionOverIssuers_keySetFirst :
    ¬ DisjunctionOverIssuers sampleLibrary employees [keySetIssuer, sharedSecretIssuer] 0
        "a.b.c" := by
  intro h
  have hraise : restAuthVerify sampleLibrary employees [keySetIssuer, sharedSecretIssuer] 0
      "a.b.c" = .error (.python "JSONDecodeError") := by rfl
  obtain ⟨result, hok⟩ := h.1.mpr ⟨_, rfl, sharedSecretIssuer, by decide,
    accepts_sharedSecretIssuer 0 "a.b.c"⟩
  cases hraise.symm.trans hok

end SsiRest.Jwt
