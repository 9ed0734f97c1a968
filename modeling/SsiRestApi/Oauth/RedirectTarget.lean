import SsiRestApi.Lib.Query
import SsiRestApi.Lib.Url
import SsiRestApi.Oauth.Owned

/-!
# Where authorize redirects to

`_append_query`, and which registered redirect URIs authorize keeps intact.

    the target has the URI's parts, its query pairs but for code and state, and the
      code and the state
        ↔ the URI's other pairs have values and keys of their own, and a state is
          given unless the URI has none                      (redirectIntact_iff)
-/

namespace SsiRest.Oauth

open Py Tx

/-- A parameter that `urlencode` is given: `str(value)`. -/
def queryItem (str : Json → String) (p : String × Json) : Option (String × String) :=
  match p.2 with
  | .null => none
  | .str s => some (p.1, s)
  | v => some (p.1, str v)

/-- `_append_query(url, params)`. -/
def appendQuery (validNetloc : List Char → Bool) (str : Json → String) (url : Json)
    (params : List (String × Json)) : Except Exn String :=
  match url with
  | .str url =>
    match urlsplit validNetloc url.toList with
    | some parts =>
      let query := updateItems [] (parseQsl false (String.ofList parts.query))
      let query := updateItems query (params.filterMap (queryItem str))
      .ok (String.ofList (urlunsplit { parts with query := (urlencode query).toList }))
    | none => .error (.python "ValueError")
  | _ => .error (.python "TypeError")

/-- The platform's `_append_query` is the one above. -/
def AppendsQuery (P : Platform) (validNetloc : List Char → Bool) : Prop :=
  P.appendQuery = appendQuery validNetloc P.str

/-- The decoded query pairs, blank values included. -/
def queryPairs (parts : SplitResult) : List (String × String) :=
  parseQsl true (String.ofList parts.query)

/-- The pairs of a URI that are neither `code` nor `state`. -/
def ownPairs (parts : SplitResult) : List (String × String) :=
  (queryPairs parts).filter fun p => p.1 ≠ "code" && p.1 ≠ "state"

/-- The `state` of an authorize call, as text. -/
def stateText (P : Platform) (kw : Kw) : Option String :=
  (queryItem P.str ("state", kw.get "state")).map Prod.snd

/-- The pairs authorize adds. -/
def givenPairs (code : String) (state : Option String) : List (String × String) :=
  ("code", code) :: state.toList.map ("state", ·)

/-- The target keeps the redirect URI intact: its parts are the URI's and its query pairs are the
URI's own, the code, and the state if there is one. -/
def RedirectIntact (validNetloc : List Char → Bool) (uri code : String) (state : Option String)
    (target : String) : Prop :=
  ∃ own new, urlsplit validNetloc uri.toList = some own ∧
    urlsplit validNetloc target.toList = some new ∧
    new.scheme = own.scheme ∧ new.netloc = own.netloc ∧ new.path = own.path ∧
    new.fragment = own.fragment ∧
    (queryPairs new).Perm (ownPairs own ++ givenPairs code state)

/-- The URI's own pairs survive a dictionary without blank values. -/
structure Mergeable (own : SplitResult) (state : Option String) : Prop where
  valued : ∀ p ∈ ownPairs own, p.2 ≠ ""
  distinct : ((ownPairs own).map Prod.fst).Nodup
  /-- Without a state in the request the URI has none of its own. -/
  stateless : state = none → ∀ p ∈ queryPairs own, p.1 = "state" → p.2 = ""

variable {P : Platform} {validNetloc : List Char → Bool} {own : SplitResult} {code : String}
  {state : Option String}

/-! ## The merge -/

/-- The URI's pairs that have a value. -/
def valuedPairs (own : SplitResult) : List (String × String) :=
  (queryPairs own).filter fun p => p.2 ≠ ""

theorem mem_givenPairs {p : String × String} :
    p ∈ givenPairs code state ↔ p = ("code", code) ∨ ∃ v, state = some v ∧ p = ("state", v) := by
  cases state <;> simp [givenPairs]

theorem nodup_keys_givenPairs : ((givenPairs code state).map Prod.fst).Nodup := by
  cases state <;> simp [givenPairs]

theorem mem_ownPairs {p : String × String} :
    p ∈ ownPairs own ↔ p ∈ queryPairs own ∧ p.1 ≠ "code" ∧ p.1 ≠ "state" := by
  simp [ownPairs]

theorem mem_valuedPairs {p : String × String} :
    p ∈ valuedPairs own ↔ p ∈ queryPairs own ∧ p.2 ≠ "" := by
  simp [valuedPairs]

/-- The dictionary of the valued pairs, updated with the given ones. -/
def mergedItems (own : SplitResult) (code : String) (state : Option String) :
    List (String × String) :=
  updateItems [] (valuedPairs own ++ givenPairs code state)

/-- A pair of the dictionary is given, or the last valued one of a key that is not given. -/
theorem mem_mergedItems {p : String × String} :
    p ∈ mergedItems own code state ↔ p ∈ givenPairs code state ∨
      IsLast (valuedPairs own) p ∧ p.1 ≠ "code" ∧ (p.1 = "state" → state = none) := by
  unfold mergedItems
  rw [mem_updateItems, isLast_append]
  refine or_congr ⟨fun h => h.mem, isLast_of_nodup nodup_keys_givenPairs⟩
    (and_congr_right fun _ => ?_)
  cases state <;> simp [givenPairs, eq_comm]

/-- The URI's own pairs have other names than the given ones. -/
theorem ownPairs_key_ne {p q : String × String} (hp : p ∈ ownPairs own)
    (hq : q ∈ givenPairs code state) : p.1 ≠ q.1 := by
  obtain ⟨-, hcode, hstate⟩ := mem_ownPairs.mp hp
  rcases mem_givenPairs.mp hq with rfl | ⟨v, -, rfl⟩
  · exact hcode
  · exact hstate

theorem nodup_keys_mergedItems : ((mergedItems own code state).map Prod.fst).Nodup :=
  nodup_keys_updateItems _

theorem mergeable_of_perm
    (hperm : (mergedItems own code state).Perm (ownPairs own ++ givenPairs code state)) :
    Mergeable own state := by
  have hkeys := (hperm.map Prod.fst).nodup_iff.mp nodup_keys_mergedItems
  have hmem : ∀ p, p ∈ mergedItems own code state ↔ p ∈ ownPairs own ∨ p ∈ givenPairs code state :=
    fun p => hperm.mem_iff.trans List.mem_append
  refine ⟨fun p hp => ?_, ?_, fun hstate p hp hkey => ?_⟩
  · rcases mem_mergedItems.mp ((hmem p).mpr (Or.inl hp)) with hgiven | ⟨hlast, -⟩
    · exact absurd rfl (ownPairs_key_ne hp hgiven)
    · exact (mem_valuedPairs.mp hlast.mem).2
  · rw [List.map_append] at hkeys
    exact (List.nodup_append.mp hkeys).1
  · by_contra hvalue
    obtain ⟨q, hq, hqkey⟩ := exists_isLast (mem_valuedPairs.mpr ⟨hp, hvalue⟩)
    have hqstate : q.1 = "state" := hqkey.trans hkey
    have hmerged : q ∈ mergedItems own code state :=
      mem_mergedItems.mpr (Or.inr ⟨hq, by rw [hqstate]; decide, fun _ => hstate⟩)
    rcases (hmem q).mp hmerged with hown | hgiven
    · exact (mem_ownPairs.mp hown).2.2 hqstate
    · rcases mem_givenPairs.mp hgiven with rfl | ⟨v, hv, -⟩
      · exact absurd hqstate (show "code" ≠ "state" by decide)
      · rw [hstate] at hv
        cases hv

theorem perm_of_mergeable (h : Mergeable own state) :
    (mergedItems own code state).Perm (ownPairs own ++ givenPairs code state) := by
  have hkeys : ((ownPairs own ++ givenPairs code state).map Prod.fst).Nodup := by
    rw [List.map_append]
    refine List.nodup_append.mpr ⟨h.distinct, nodup_keys_givenPairs, ?_⟩
    rintro k hk k' hk' rfl
    obtain ⟨p, hp, rfl⟩ := List.mem_map.mp hk
    obtain ⟨q, hq, hqkey⟩ := List.mem_map.mp hk'
    exact ownPairs_key_ne hp hq hqkey.symm
  refine (List.perm_ext_iff_of_nodup (List.Nodup.of_map _ nodup_keys_mergedItems)
    (List.Nodup.of_map _ hkeys)).mpr fun p => ?_
  rw [mem_mergedItems, List.mem_append, or_comm]
  refine or_congr_left ⟨fun ⟨hlast, hcode, hstate⟩ => ?_, fun hp => ?_⟩
  · obtain ⟨hp, hvalue⟩ := mem_valuedPairs.mp hlast.mem
    exact mem_ownPairs.mpr ⟨hp, hcode, fun hkey => hvalue (h.stateless (hstate hkey) p hp hkey)⟩
  · obtain ⟨hquery, hcode, hstate⟩ := mem_ownPairs.mp hp
    obtain ⟨q, hq, hkey⟩ := exists_isLast (mem_valuedPairs.mpr ⟨hquery, h.valued p hp⟩)
    have hqown : q ∈ ownPairs own := mem_ownPairs.mpr
      ⟨(mem_valuedPairs.mp hq.mem).1, by rwa [hkey], by rwa [hkey]⟩
    rw [List.inj_on_of_nodup_map h.distinct hqown hp hkey] at hq
    exact ⟨hq, hcode, fun hkey => absurd hkey hstate⟩

/-- The dictionary has the URI's own pairs and the given ones exactly if the own ones survive it. -/
theorem perm_mergedItems_iff :
    (mergedItems own code state).Perm (ownPairs own ++ givenPairs code state) ↔
      Mergeable own state :=
  ⟨mergeable_of_perm, perm_of_mergeable⟩

/-! ## The target -/

theorem canonical_withQuery (h : own.Canonical) (query : List Char) :
    ({ own with query := query } : SplitResult).Canonical :=
  ⟨h.scheme, h.netloc, h.path, h.absolute, h.clean, h.relative⟩

/-- What the URL with another query splits into. -/
theorem urlsplit_merged {uri : List Char} (h : urlsplit validNetloc uri = some own)
    (items : List (String × String)) :
    urlsplit validNetloc (urlunsplit { own with query := (urlencode items).toList }) =
      some { own with query := (urlencode items).toList } := by
  obtain ⟨hcanonical, hvalid⟩ := canonical_urlsplit h
  refine urlsplit_urlunsplit (canonical_withQuery hcanonical _) hvalid fun c hc => ?_
  obtain ⟨hgt, hhash⟩ := mem_toList_urlencode hc
  refine ⟨hhash, fun hunsafe => ?_⟩
  have := toNat_lt_of_mem_unsafeChars hunsafe
  omega

theorem queryPairs_urlencode (items : List (String × String)) :
    queryPairs { own with query := (urlencode items).toList } = items := by
  unfold queryPairs
  rw [String.ofList_toList, parseQsl_urlencode]

/-- A URI with another query is kept intact if that has the right pairs. -/
theorem redirectIntact_merged_iff {uri : String} (h : urlsplit validNetloc uri.toList = some own)
    (items : List (String × String)) :
    RedirectIntact validNetloc uri code state
        (String.ofList (urlunsplit { own with query := (urlencode items).toList })) ↔
      items.Perm (ownPairs own ++ givenPairs code state) := by
  have hnew := urlsplit_merged h items
  unfold RedirectIntact
  rw [String.toList_ofList]
  constructor
  · rintro ⟨own', new, hown', hnew', -, -, -, -, hperm⟩
    obtain rfl := Option.some.inj (h.symm.trans hown')
    obtain rfl := Option.some.inj (hnew.symm.trans hnew')
    rwa [queryPairs_urlencode] at hperm
  · intro hperm
    exact ⟨own, _, h, hnew, rfl, rfl, rfl, rfl, by rwa [queryPairs_urlencode]⟩

theorem appendQuery_ok {str : Json → String} {uri target : String} {v : Json}
    (h : appendQuery validNetloc str (.str uri) [("code", .str code), ("state", v)] = .ok target) :
    ∃ own, urlsplit validNetloc uri.toList = some own ∧
      target = String.ofList (urlunsplit { own with query := (urlencode (mergedItems own code
        ((queryItem str ("state", v)).map Prod.snd))).toList }) := by
  have hparams : [("code", Json.str code), ("state", v)].filterMap (queryItem str) =
      givenPairs code ((queryItem str ("state", v)).map Prod.snd) := by
    cases v <;> rfl
  unfold appendQuery at h
  dsimp only at h
  split at h
  · next parts hparts =>
    refine ⟨parts, hparts, ?_⟩
    rw [← Except.ok.inj h, hparams, parseQsl_false]
    unfold mergedItems updateItems
    rw [List.foldl_append]
    rfl
  · cases h

/-- The redirect URI is kept intact exactly if its own pairs survive the merge. -/
theorem redirectIntact_iff (hP : AppendsQuery P validNetloc) {s s' : State} {uid : Nat} {kw : Kw}
    {uri target : String} (huri : kw.get "redirect_uri" = .str uri)
    (hrun : (authorize P uid kw).run s = (.ok (.redirect target), s')) :
    RedirectIntact validNetloc uri (rawValue P s.drawn) (stateText P kw) target ↔
      ∃ own, urlsplit validNetloc uri.toList = some own ∧ Mergeable own (stateText P kw) := by
  obtain ⟨-, -, target', htarget, hreply⟩ := of_run_authorize hrun
  obtain rfl := Reply.redirect.inj hreply
  rw [hP, huri] at htarget
  obtain ⟨own, hown, rfl⟩ := appendQuery_ok htarget
  refine (redirectIntact_merged_iff hown _).trans (perm_mergedItems_iff.trans ?_)
  constructor
  · exact fun h => ⟨own, hown, h⟩
  · rintro ⟨own', hown', h⟩
    obtain rfl := Option.some.inj (hown.symm.trans hown')
    exact h

/-! ## Two redirect URIs -/

/-- The platform with the merge above. -/
def urlPlatform : Platform :=
  { Platform.sample with appendQuery := appendQuery (fun _ => true) Platform.sample.str }

theorem appendsQuery_urlPlatform : AppendsQuery urlPlatform fun _ => true := rfl

/-- A client with one redirect URI. -/
def clientWith (uri : String) : Row Client :=
  ⟨1, { webClient.val with redirectUriIds := [uri] }⟩

/-- An authorize call with a state. -/
def authorizeKw (uri state : String) : Kw :=
  [("client_id", .str "web"), ("redirect_uri", .str uri), ("response_type", .str "code"),
   ("code_challenge", .str "verifier"), ("code_challenge_method", .str "plain"),
   ("state", .str state)]

def tenantUri : String := "https://app.example/cb?tenant=a"

def tenantTarget : String := "https://app.example/cb?tenant=a&code=sot_AAAAAAAA&state=x"

theorem redirectIntact_tenant :
    RedirectIntact (fun _ => true) tenantUri (rawValue urlPlatform 0)
        (stateText urlPlatform (authorizeKw tenantUri "x")) tenantTarget ↔
      ∃ own, urlsplit (fun _ => true) tenantUri.toList = some own ∧
        Mergeable own (stateText urlPlatform (authorizeKw tenantUri "x")) :=
  @redirectIntact_iff urlPlatform (fun _ => true) appendsQuery_urlPlatform
    (initial [clientWith tenantUri] 0) _ 7 (authorizeKw tenantUri "x") tenantUri tenantTarget
    (by rfl) (by rfl)

def flagUri : String := "https://app.example/cb?flag="

/-- A flag without a value is dropped from the registered URI. -/
theorem not_redirectIntact :
    ∃ target s', (authorize urlPlatform 7 (authorizeKw flagUri "x")).run
        (initial [clientWith flagUri] 0) = (.ok (.redirect target), s') ∧
      ¬ RedirectIntact (fun _ => true) flagUri (rawValue urlPlatform 0)
        (stateText urlPlatform (authorizeKw flagUri "x")) target := by
  refine ⟨"https://app.example/cb?code=sot_AAAAAAAA&state=x", _, by rfl, ?_⟩
  rintro ⟨own, new, hown, hnew, -, -, -, -, hperm⟩
  have hown' : urlsplit (fun _ => true) flagUri.toList = some
      ⟨"https".toList, "app.example".toList, "/cb".toList, "flag=".toList, []⟩ := by rfl
  have hnew' : urlsplit (fun _ => true)
      "https://app.example/cb?code=sot_AAAAAAAA&state=x".toList = some
      ⟨"https".toList, "app.example".toList, "/cb".toList, "code=sot_AAAAAAAA&state=x".toList, []⟩ :=
    by rfl
  obtain rfl := Option.some.inj (hown'.symm.trans hown)
  obtain rfl := Option.some.inj (hnew'.symm.trans hnew)
  exact absurd hperm.length_eq (by decide)

end SsiRest.Oauth
