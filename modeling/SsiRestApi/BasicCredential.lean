import SsiRestApi.Extraction

/-!
# Reading Basic credentials

`_rest_auth_extract` of the basic provider on every header, and on the headers a client
writes.  `b64decode` has two failures, and the handler names one: a text that is not
ASCII raises a plain `ValueError`.

    parsed or refused ↔ what follows `Basic ` is ASCII             (basicCredential_iff)
-/

namespace SsiRest

open Py

/-- The provider reads the header as it should: nothing without `Basic `, else a login and a
password or the refusal of a malformed credential. -/
def ParsesBasic (q : HttpRequest) : Prop :=
  ∀ header, q.header "Authorization" = some header →
    if startsWith header "Basic " then
      (∃ login password, ssiRestAuthBasic.extract q = .ok (some (.basic login password))) ∨
        ssiRestAuthBasic.extract q = .error malformedBasic
    else ssiRestAuthBasic.extract q = .ok none

/-- What follows `Basic `, without the blanks around it, is ASCII. -/
def AsciiBasic (q : HttpRequest) : Prop :=
  ∀ rest, q.header "Authorization" = some ("Basic " ++ rest) →
    ∀ c ∈ (strip rest).toList, c.toNat < 128

/-- The header of a login and a password. -/
def basicHeader (login password : String) : String :=
  "Basic " ++ b64encode (encodeUtf8 (login ++ ":" ++ password))

variable {q : HttpRequest}

/-- Only the text that is not ASCII makes `b64decode` raise a plain `ValueError`. -/
theorem b64decode_notAscii_iff (s : String) :
    b64decode s = .error .notAscii ↔ ¬ ∀ c ∈ s.toList, c.toNat < 128 := by
  rw [← isSome_encodeAscii_iff]
  unfold b64decode
  cases hascii : encodeAscii s with
  | none => exact iff_of_true rfl (by simp)
  | some bs =>
    refine iff_of_false (fun h => ?_) (not_not_intro rfl)
    exact a2bLoop_ne_notAscii h

theorem extract_none {header : String} (h : q.header "Authorization" = some header)
    (hstarts : startsWith header "Basic " = false) : ssiRestAuthBasic.extract q = .ok none := by
  have hvalue : authorizationValue q "Basic " = none := by
    unfold authorizationValue
    rw [h]
    exact if_pos (Or.inr hstarts)
  unfold ssiRestAuthBasic
  dsimp only
  rw [hvalue]

theorem extract_decoded {encoded decoded : String}
    (h : authorizationValue q "Basic " = some encoded) {data : List UInt8}
    (hdata : b64decode encoded = .ok data) (hdecoded : decodeUtf8 data = some decoded) :
    ssiRestAuthBasic.extract q =
      if decoded.toList.contains ':' then
        .ok (some (.basic (partition ':' decoded).1 (partition ':' decoded).2))
      else .error malformedBasic := by
  unfold ssiRestAuthBasic
  dsimp only
  rw [h]
  dsimp only
  rw [hdata]
  dsimp only
  rw [hdecoded]

/-- Of a value that is ASCII every failure is a refusal. -/
theorem extract_of_ascii {encoded : String} (h : authorizationValue q "Basic " = some encoded)
    (hascii : ∀ c ∈ encoded.toList, c.toNat < 128) :
    (∃ login password, ssiRestAuthBasic.extract q = .ok (some (.basic login password))) ∨
      ssiRestAuthBasic.extract q = .error malformedBasic := by
  cases hdata : b64decode encoded with
  | error e =>
    cases e with
    | notAscii => exact absurd hascii ((b64decode_notAscii_iff encoded).mp hdata)
    | binascii =>
      right
      unfold ssiRestAuthBasic
      dsimp only
      rw [h]
      dsimp only
      rw [hdata]
  | ok data =>
    cases hdecoded : decodeUtf8 data with
    | none =>
      right
      unfold ssiRestAuthBasic
      dsimp only
      rw [h]
      dsimp only
      rw [hdata]
      dsimp only
      rw [hdecoded]
    | some decoded =>
      rw [extract_decoded h hdata hdecoded]
      split
      · exact Or.inl ⟨_, _, rfl⟩
      · exact Or.inr rfl

theorem extract_of_not_ascii {encoded : String} (h : authorizationValue q "Basic " = some encoded)
    (hascii : ¬ ∀ c ∈ encoded.toList, c.toNat < 128) :
    ssiRestAuthBasic.extract q = .error (.python "ValueError") := by
  unfold ssiRestAuthBasic
  dsimp only
  rw [h]
  dsimp only
  rw [(b64decode_notAscii_iff encoded).mpr hascii]

theorem parsesBasic_iff : ParsesBasic q ↔ AsciiBasic q := by
  constructor
  · intro h rest hheader
    have hvalue := authorizationValue_append (by decide) hheader
    have hparsed := h _ hheader
    rw [if_pos (startsWith_append _ _)] at hparsed
    by_contra hascii
    rw [extract_of_not_ascii hvalue hascii] at hparsed
    rcases hparsed with ⟨login, password, he⟩ | he
    · cases he
    · cases he
  · intro h header hheader
    split
    · next hstarts =>
      obtain ⟨rest, rfl⟩ := exists_of_startsWith hstarts
      exact extract_of_ascii (authorizationValue_append (by decide) hheader) (h rest hheader)
    · next hstarts => exact extract_none hheader (Bool.not_eq_true _ ▸ hstarts)

/-! ## Round trip -/

/-- **Basic credentials.**  Every header is parsed or refused, exactly when what follows `Basic `
is ASCII; and the header of a login without a colon and of any password gives them back. -/
theorem basicCredential_iff (q : HttpRequest) :
    (ParsesBasic q ↔ AsciiBasic q) ∧
    ∀ login password, ':' ∉ login.toList →
      q.header "Authorization" = some (basicHeader login password) →
        ssiRestAuthBasic.extract q = .ok (some (.basic login password)) := by
  refine ⟨parsesBasic_iff, fun login password hlogin hheader => ?_⟩
  have hstrip : strip (b64encode (encodeUtf8 (login ++ ":" ++ password))) =
      b64encode (encodeUtf8 (login ++ ":" ++ password)) :=
    strip_eq_self fun c hc => isSpace_of_printable (b64encode_printable hc)
  have hvalue := authorizationValue_append (by decide) hheader
  rw [hstrip] at hvalue
  rw [extract_decoded hvalue (b64decode_b64encode _) (decodeUtf8_encodeUtf8 _), if_pos,
    show (":" : String) = String.singleton ':' from rfl, partition_append hlogin]
  rw [List.contains_iff_mem, String.toList_append, String.toList_append]
  exact List.mem_append_left _ (List.mem_append_right _ (by decide))

/-- A request with this `Authorization` header. -/
def authorizedRequest (header : String) : HttpRequest where
  remoteAddr := none
  path := "/api/v1/ping"
  method := "GET"
  headers := [("Authorization", header)]
  args := []
  mimetype := ""
  formParams := []
  contentLength := 0
  jsonData := .error ""

/-- A login and a password that needs more than ASCII. -/
theorem basicCredential_unicode :
    ssiRestAuthBasic.extract (authorizedRequest (basicHeader "admin" "pässwörd:1")) =
      .ok (some (.basic "admin" "pässwörd:1")) :=
  (basicCredential_iff _).2 "admin" "pässwörd:1" (by decide) rfl

/-- A value that is not ASCII is neither parsed nor refused. -/
theorem not_parsesBasic : ¬ ParsesBasic (authorizedRequest "Basic é") := by
  intro h
  have h := parsesBasic_iff.mp h "é" rfl 'é' (by decide)
  exact absurd h (by decide)

end SsiRest
