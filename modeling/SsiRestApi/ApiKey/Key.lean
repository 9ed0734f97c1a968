import SsiRestApi.Auth
import SsiRestApi.Credential

/-!
# API keys

`ssi_rest_api_key`: its fields, access list and record rules, the generation of a
raw key, and `_authenticate`, which finds the key a raw value belongs to.
-/

namespace SsiRest.ApiKey

open Py Tx

/-- `ssi_rest_api_key`. -/
structure Key where
  userId : Nat
  profileId : Nat
  keyIndex : Option String
  keyHash : Option String
  expirationDate : Option Int
  active : Bool
  lastUsedDate : Option Int
  deriving DecidableEq

/-- The values of a `create` or `write`: those of the fields it names.  The two required
fields are never emptied. -/
structure KeyVals where
  userId : Option Nat := none
  profileId : Option Nat := none
  keyIndex : Option (Option String) := none
  keyHash : Option (Option String) := none
  expirationDate : Option (Option Int) := none
  active : Option Bool := none
  lastUsedDate : Option (Option Int) := none
  deriving DecidableEq

instance : Update KeyVals Key where
  update vals k :=
    { userId := vals.userId.getD k.userId
      profileId := vals.profileId.getD k.profileId
      keyIndex := vals.keyIndex.getD k.keyIndex
      keyHash := vals.keyHash.getD k.keyHash
      expirationDate := vals.expirationDate.getD k.expirationDate
      active := vals.active.getD k.active
      lastUsedDate := vals.lastUsedDate.getD k.lastUsedDate }

section Update

variable (vals : KeyVals) (k : Key)

@[simp] theorem update_userId : (update vals k).userId = vals.userId.getD k.userId := rfl

@[simp] theorem update_keyIndex : (update vals k).keyIndex = vals.keyIndex.getD k.keyIndex := rfl

@[simp] theorem update_keyHash : (update vals k).keyHash = vals.keyHash.getD k.keyHash := rfl

@[simp] theorem update_active : (update vals k).active = vals.active.getD k.active := rfl

@[simp] theorem update_expirationDate :
    (update vals k).expirationDate = vals.expirationDate.getD k.expirationDate := rfl

end Update

/-- A record that has only a user and a profile. -/
def blank (userId profileId : Nat) : Key := ⟨userId, profileId, none, none, none, true, none⟩

/-- The model's access list and its two record rules: own keys, and every key for the
administrators of the module. -/
def keyModel : Model Key where
  name := "ssi_rest_api_key"
  security :=
    { access := [⟨some .user, [.read, .write, .create, .unlink]⟩]
      rules :=
        [⟨[.user], [.read, .write, .create, .unlink], fun u k => k.userId == u.uid⟩,
         ⟨[.apiKeyAdministrator], [.read, .write, .create, .unlink], fun _ _ => true⟩] }

/-- Whoever may do something with a key owns it or is an administrator of the module. -/
theorem owner_of_permits {u : User} {mode : Acl.Mode} {k : Key}
    (h : keyModel.security.permits u mode k = true) :
    k.userId = u.uid ∨ Group.apiKeyAdministrator ∈ u.groups := by
  obtain ⟨⟨entry, hentry, hgrant⟩, -, hrules⟩ := Acl.Security.permits_iff.mp h
  cases List.mem_singleton.mp hentry
  simp only [Acl.Access.grants, Option.all_some, Bool.and_eq_true, List.contains_iff_mem] at hgrant
  rcases hrules with hnil | ⟨rule, hrule, hdomain⟩
  · -- an internal user has a rule of their own
    have hown : (⟨[.user], [.read, .write, .create, .unlink], fun u k => k.userId == u.uid⟩ :
        Acl.Rule Group Key) ∈ keyModel.security.groupRules u mode :=
      List.mem_filter.mpr ⟨by simp [keyModel], by cases mode <;> simp [hgrant.2]⟩
    rw [hnil] at hown
    cases hown
  · obtain ⟨hmem, happly⟩ := List.mem_filter.mp hrule
    simp only [keyModel, List.mem_cons, List.not_mem_nil, or_false] at hmem
    rcases hmem with rfl | rfl
    · exact Or.inl (by simpa using hdomain)
    · exact Or.inr (by simpa using ((Bool.and_eq_true _ _).mp happly).2)

/-! ## Operations -/

abbrev KeyM := Prog Unit Key KeyVals Exn

/-- The row a `create` makes: the caller owns it unless the values say otherwise, and a
profile must be given. -/
def newKey (env : Env) (vals : KeyVals) : Option Key :=
  vals.profileId.map fun profileId => update vals (blank env.user.uid profileId)

/-- What PostgreSQL raises on a missing required value. -/
def notNullViolation : Exn := .python "NotNullViolation"

def create (env : Env) (vals : KeyVals) : KeyM Nat := do
  let val ← ofOption (newKey env vals) notNullViolation
  Orm.create keyModel env val

/-- What `copy` keeps of a key: the fields that are not `copy=False`. -/
def copyData (k : Key) (default : KeyVals) : Key :=
  update default { k with keyIndex := none, keyHash := none, lastUsedDate := none }

/-- `copy(default)` of one record. -/
def copy (env : Env) (id : Nat) (default : KeyVals) : KeyM Nat := do
  Orm.checkAccess keyModel env .read [id]
  let rows ← getRows
  let record ← ofOption (rows.find? fun r => r.id == id) (Orm.missingError keyModel)
  Orm.create keyModel env (copyData record.val default)

def keyPrefix : String := "sak_"

def keyIndexSize : Nat := 12

/-- The raw key made of the `i`-th random text. -/
def rawKey (P : Platform) (i : Nat) : String := P.rawValue keyPrefix i

/-- What `_generate_new_key` writes. -/
def generatedVals (P : Platform) (i : Nat) : KeyVals where
  keyIndex := some (some (slice (rawKey P i) keyIndexSize))
  keyHash := some (some (P.crypt.hash i (rawKey P i)))

def keyCredential (P : Platform) : Credential P Key KeyVals where
  model := keyModel
  check _ := .ok ()
  raw := rawKey P
  vals := generatedVals P
  hash k := k.keyHash
  title := "API Key Generated"
  message := "Copy this key now, it will not be shown again:\n\n"
  hash_update _ _ := rfl
  check_update _ _ := rfl

@[simp] theorem keyCredential_model (P : Platform) : (keyCredential P).model = keyModel := rfl

@[simp] theorem keyCredential_check (P : Platform) (k : Key) :
    (keyCredential P).check k = .ok () := rfl

/-- `_generate_new_key` on one record. -/
def generateNewKey (P : Platform) (env : Env) (id : Nat) : KeyM String :=
  (keyCredential P).generateNew env id

/-- `action_generate_key`. -/
def actionGenerateKey (P : Platform) (env : Env) (ids : List Nat) : KeyM Notification :=
  (keyCredential P).actionGenerate env ids

/-- `_touch_last_used_date`, as the superuser. -/
def touchLastUsedDate (superuser : User) (id : Nat) : KeyM Unit := do
  let now ← getNow
  Orm.write keyModel ⟨superuser, true⟩ [id] { lastUsedDate := some (some now) }

/-! ## Authentication -/

/-- `("expiration_date", "=", False)` or later than now. -/
def Key.unexpired (k : Key) (now : Int) : Bool := k.expirationDate.all fun e => now < e

/-- The domain `_authenticate` searches with. -/
def candidate (now : Int) (rawKey : String) (k : Key) : Bool :=
  k.keyIndex == some (slice rawKey keyIndexSize) && k.active && k.unexpired now

/-- `_authenticate(raw_key)`: the newest key first. -/
def authenticate (P : Platform) (rows : List (Row Key)) (now : Int) (rawKey : String) :
    Except Exn (Option (Row Key)) :=
  if rawKey = "" then .ok none
  else P.crypt.firstMatch hashError (fun r => r.val.keyHash) rawKey
    (rows.filter fun r => candidate now rawKey r.val)

/-- `_authenticate` returns the first live key with the index whose hash verifies. -/
theorem authenticate_some_iff {P : Platform} {rows : List (Row Key)} {now : Int} {raw : String}
    {r : Row Key} :
    authenticate P rows now raw = .ok (some r) ↔ raw ≠ "" ∧
      P.crypt.Selects (fun r : Row Key => r.val.keyHash) raw
        (rows.filter fun r => candidate now raw r.val) r := by
  unfold authenticate
  by_cases hraw : raw = ""
  · simp [hraw]
  · rw [if_neg hraw, CryptContext.firstMatch_iff_selects]
    simp [hraw]

/-- What `_authenticate` returns is an active, unexpired key whose hash verifies. -/
theorem authenticate_some {P : Platform} {rows : List (Row Key)} {now : Int} {raw : String}
    {r : Row Key} (h : authenticate P rows now raw = .ok (some r)) :
    r ∈ rows ∧ r.val.active = true ∧ r.val.unexpired now = true ∧
      ∃ hash, r.val.keyHash = some hash ∧ hash ≠ "" ∧ P.crypt.verify raw hash = some true := by
  unfold authenticate at h
  split at h
  · cases h
  · obtain ⟨hmem, hcheck⟩ := CryptContext.mem_of_firstMatch h
    obtain ⟨hr, hc⟩ := List.mem_filter.mp hmem
    simp only [candidate, Bool.and_eq_true] at hc
    exact ⟨hr, hc.1.2, hc.2, CryptContext.check_true_iff.mp hcheck⟩

/-- `_rest_auth_verify(credential)` of `ssi_rest_auth_apikey`. -/
def restAuthVerify (P : Platform) (rows : List (Row Key)) (now : Int) (credential : String) :
    Except Exn RestAuthResult :=
  match authenticate P rows now credential with
  | .error e => .error e
  | .ok none => .error (invalidCredential "Invalid or expired API key.")
  | .ok (some record) =>
    .ok { RestAuthResult.ofUser record.val.userId "apikey" with
      profileIds := [record.val.profileId] }

theorem restAuthVerify_ok {P : Platform} {rows : List (Row Key)} {now : Int}
    {credential : String} {result : RestAuthResult} :
    restAuthVerify P rows now credential = .ok result ↔
      ∃ record, authenticate P rows now credential = .ok (some record) ∧
        result = { RestAuthResult.ofUser record.val.userId "apikey" with
          profileIds := [record.val.profileId] } := by
  unfold restAuthVerify
  split
  · next e he => simp [he]
  · next he => simp [he]
  · next record he => simp [he, eq_comm]

end SsiRest.ApiKey
