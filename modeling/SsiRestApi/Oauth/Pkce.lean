import SsiRestApi.Lib.Base64
import SsiRestApi.Oauth.Token

/-!
# PKCE

When `_check_pkce` accepts a verifier, and when it raises.

    it accepts a verifier ↔ it answers the stored challenge, and is ASCII if the
      method is plain                                      (checkPkce_true_iff)
    it returns at all ↔ there is nothing to compare, or both texts are ASCII
                                                           (checkPkce_returns_iff)
-/

namespace SsiRest.Oauth

open Py Tx

def isAscii (s : String) : Bool := (encodeAscii s).isSome

/-- The challenge a verifier answers: itself if the method is plain, else its S256 transform,
which only ASCII text has. -/
def challengeOf (method : Option ChallengeMethod) (verifier : String) : Option String :=
  if method = some .plain then some verifier
  else (encodeAscii verifier).map fun bytes =>
    String.ofList (urlsafeB64encodeUnpadded (sha256 bytes))

/-- The verifier is text that answers the stored challenge. -/
def Token.Answered (t : Token) (verifier : String) : Prop :=
  verifier ≠ "" ∧ ∃ challenge, t.codeChallenge = some challenge ∧
    challengeOf t.codeChallengeMethod verifier = some challenge

/-- With a challenge and a verifier to compare, both are ASCII text. -/
def Token.Comparable (t : Token) (codeVerifier : Json) : Prop :=
  ∀ challenge, t.codeChallenge = some challenge → challenge ≠ "" → codeVerifier.truthy = true →
    isAscii challenge = true ∧ ∃ verifier, codeVerifier = .str verifier ∧ isAscii verifier = true

variable {t : Token} {challenge : String} {codeVerifier : Json}

theorem compareDigest_str {s : String} (hs : isAscii s = true) (hc : isAscii challenge = true) :
    compareDigest (.str s) challenge = .ok (s == challenge) := by
  unfold isAscii at hs hc
  simp [compareDigest, hs, hc]

theorem compareDigest_raises (codeVerifier : Json)
    (h : ¬ (isAscii challenge = true ∧ ∃ s, codeVerifier = .str s ∧ isAscii s = true)) :
    ∃ e, compareDigest codeVerifier challenge = .error e := by
  cases codeVerifier with
  | str s =>
    refine ⟨_, if_neg fun hboth => h ?_⟩
    obtain ⟨hs, hc⟩ := (Bool.and_eq_true _ _).mp hboth
    exact ⟨hc, s, rfl, hs⟩
  | _ => exact ⟨_, rfl⟩

/-- The S256 transform is there for ASCII text only, and is non-empty ASCII itself. -/
theorem s256_str {s : String} (hs : isAscii s = true) {method : Option ChallengeMethod}
    (hmethod : method ≠ some .plain) :
    ∃ computed, s256 (.str s) = .ok computed ∧ challengeOf method s = some computed ∧
      isAscii computed = true ∧ computed ≠ "" := by
  obtain ⟨bytes, hbytes⟩ := Option.isSome_iff_exists.mp hs
  refine ⟨String.ofList (urlsafeB64encodeUnpadded (sha256 bytes)), by simp [s256, hbytes],
    by simp [challengeOf, hmethod, hbytes], isSome_encodeAscii_urlsafeB64encode _, fun hempty => ?_⟩
  have hdigest : sha256 bytes ≠ [] := by
    intro hnil
    have hlength := length_sha256 bytes
    rw [hnil] at hlength
    cases hlength
  have hlist := congrArg String.toList hempty
  rw [String.toList_ofList, String.toList_empty] at hlist
  exact urlsafeB64encode_ne_nil hdigest hlist

theorem s256_raises (h : ∀ s, codeVerifier = .str s → isAscii s = false) :
    ∃ e, s256 codeVerifier = .error e := by
  cases codeVerifier with
  | str s =>
    have hs : encodeAscii s = none := by simpa [isAscii] using h s rfl
    exact ⟨.python "UnicodeEncodeError", by simp [s256, hs]⟩
  | _ => exact ⟨_, rfl⟩

/-! ## The check -/

/-- Without a challenge or a verifier the check returns `False`. -/
theorem checkPkce_of_nothing
    (h : ∀ challenge, t.codeChallenge = some challenge → challenge ≠ "" →
      codeVerifier.truthy = false) : t.checkPkce codeVerifier = .ok false := by
  unfold Token.checkPkce
  cases hchallenge : t.codeChallenge with
  | none => rfl
  | some challenge =>
    refine if_pos ?_
    by_cases hne : challenge = ""
    · simp [hne]
    · simp [h challenge hchallenge hne]

theorem checkPkce_compares (hchallenge : t.codeChallenge = some challenge) (hne : challenge ≠ "")
    (htruthy : codeVerifier.truthy = true) :
    t.checkPkce codeVerifier =
      if t.codeChallengeMethod = some .plain then compareDigest codeVerifier challenge
      else s256 codeVerifier >>= fun computed => compareDigest (.str computed) challenge := by
  simp only [Token.checkPkce, hchallenge, hne, htruthy]
  cases s256 codeVerifier <;> rfl

theorem checkPkce_of_ascii (hchallenge : t.codeChallenge = some challenge) (hne : challenge ≠ "")
    {verifier : String} (hv : verifier ≠ "") (hc : isAscii challenge = true)
    (hva : isAscii verifier = true) :
    t.checkPkce (.str verifier) =
      .ok (challengeOf t.codeChallengeMethod verifier == some challenge) := by
  rw [checkPkce_compares hchallenge hne (by simpa using hv)]
  by_cases hplain : t.codeChallengeMethod = some .plain
  · rw [if_pos hplain, compareDigest_str hva hc, challengeOf, if_pos hplain, Option.some_beq_some]
  · obtain ⟨computed, hs256, hof, hascii, -⟩ := s256_str hva hplain
    rw [if_neg hplain, hs256, hof, Option.some_beq_some]
    exact compareDigest_str hascii hc

/-- ASCII text answers an ASCII challenge. -/
theorem isAscii_challengeOf {method : Option ChallengeMethod} {verifier : String}
    (hv : verifier ≠ "") (hva : isAscii verifier = true)
    (h : challengeOf method verifier = some challenge) :
    isAscii challenge = true ∧ challenge ≠ "" := by
  by_cases hplain : method = some .plain
  · rw [challengeOf, if_pos hplain] at h
    obtain rfl := Option.some.inj h
    exact ⟨hva, hv⟩
  · obtain ⟨computed, -, hof, hascii, hne⟩ := s256_str hva hplain
    obtain rfl := Option.some.inj (hof.symm.trans h)
    exact ⟨hascii, hne⟩

/-- With something to compare that is no ASCII text, the check raises. -/
theorem checkPkce_raises (hchallenge : t.codeChallenge = some challenge) (hne : challenge ≠ "")
    (htruthy : codeVerifier.truthy = true)
    (h : ¬ (isAscii challenge = true ∧ ∃ s, codeVerifier = .str s ∧ isAscii s = true)) :
    ∃ e, t.checkPkce codeVerifier = .error e := by
  rw [checkPkce_compares hchallenge hne htruthy]
  by_cases hplain : t.codeChallengeMethod = some .plain
  · rw [if_pos hplain]
    exact compareDigest_raises codeVerifier h
  · rw [if_neg hplain]
    by_cases hs : ∃ s, codeVerifier = .str s ∧ isAscii s = true
    · obtain ⟨s, rfl, hs⟩ := hs
      obtain ⟨computed, hs256, -, -, -⟩ := s256_str hs hplain
      rw [hs256]
      exact compareDigest_raises (.str computed) fun hc => h ⟨hc.1, s, rfl, hs⟩
    · obtain ⟨e, he⟩ := s256_raises fun s hv => by
        by_contra hne'
        exact hs ⟨s, hv, by simpa using hne'⟩
      exact ⟨e, by rw [he]; rfl⟩

theorem checkPkce_returns_iff :
    (∃ b, t.checkPkce codeVerifier = .ok b) ↔ t.Comparable codeVerifier := by
  constructor
  · rintro ⟨b, hb⟩ challenge hchallenge hne htruthy
    by_contra hnot
    obtain ⟨e, he⟩ := checkPkce_raises hchallenge hne htruthy hnot
    rw [he] at hb
    cases hb
  · intro h
    by_cases hnothing : ∀ challenge, t.codeChallenge = some challenge → challenge ≠ "" →
        codeVerifier.truthy = false
    · exact ⟨false, checkPkce_of_nothing hnothing⟩
    · push Not at hnothing
      obtain ⟨challenge, hchallenge, hne, htruthy⟩ := hnothing
      have htruthy : codeVerifier.truthy = true := by simpa using htruthy
      obtain ⟨hc, verifier, rfl, hva⟩ := h challenge hchallenge hne htruthy
      exact ⟨_, checkPkce_of_ascii hchallenge hne (by simpa using htruthy) hc hva⟩

/-- The check accepts the text that answers the challenge, if it is ASCII. -/
theorem checkPkce_true_iff :
    t.checkPkce codeVerifier = .ok true ↔ ∃ verifier, codeVerifier = .str verifier ∧
      t.Answered verifier ∧ isAscii verifier = true := by
  constructor
  · intro h
    by_cases hnothing : ∀ challenge, t.codeChallenge = some challenge → challenge ≠ "" →
        codeVerifier.truthy = false
    · rw [checkPkce_of_nothing hnothing] at h
      cases h
    · push Not at hnothing
      obtain ⟨challenge, hchallenge, hne, htruthy⟩ := hnothing
      have htruthy : codeVerifier.truthy = true := by simpa using htruthy
      obtain ⟨hc, verifier, rfl, hva⟩ :=
        checkPkce_returns_iff.mp ⟨true, h⟩ challenge hchallenge hne htruthy
      have hv : verifier ≠ "" := by simpa using htruthy
      rw [checkPkce_of_ascii hchallenge hne hv hc hva, Except.ok.injEq, beq_iff_eq] at h
      exact ⟨verifier, rfl, ⟨hv, challenge, hchallenge, h⟩, hva⟩
  · rintro ⟨verifier, rfl, ⟨hv, challenge, hchallenge, hof⟩, hva⟩
    obtain ⟨hc, hne⟩ := isAscii_challengeOf hv hva hof
    rw [checkPkce_of_ascii hchallenge hne hv hc hva, beq_iff_eq.mpr hof]

/-- Only under the plain method can text that is not ASCII answer a challenge. -/
theorem Token.Answered.plain {verifier : String} (h : t.Answered verifier)
    (hva : isAscii verifier = false) : t.codeChallengeMethod = some .plain := by
  obtain ⟨-, challenge, -, hof⟩ := h
  by_contra hplain
  have hnone : encodeAscii verifier = none := by simpa [isAscii] using hva
  simp [challengeOf, hplain, hnone] at hof

end SsiRest.Oauth
