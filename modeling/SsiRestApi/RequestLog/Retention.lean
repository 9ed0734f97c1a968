import SsiRestApi.AccessProfile
import SsiRestApi.Lib.Datetime
import SsiRestApi.RequestLog.Dispatcher

/-!
# The retention of the request log

`_gc_expired_request_log`, against what its docstring says of the setting: the rows of more
than `n` days go, and a setting that is no positive number deletes none.

    the collection leaves the rows retained   iff   a setting that is a number reaches back
    no further than the calendar, and one that is none meets no row of more than 30 days
                                            (gcExpiredRequestLog_eq_retained_iff)
-/

namespace SsiRest.RequestLog

open Py

/-- A stored row of `ssi_rest_request_log`. -/
structure LogRow where
  id : Nat
  createDate : Option Datetime
  vals : LogVals

/-- `int(icp.get_param("ssi_rest_api.log_retention_days", "30"))`, with its fallback. -/
def retentionDays (param : Option String) : Int :=
  (parseInt ((filledIn param).getD "30")).getD 30

/-- The domain `[("create_date", "<", cutoff)]`. -/
def LogRow.createdBefore (cutoff : Datetime) (row : LogRow) : Bool :=
  row.createDate.any fun t => t < cutoff

/-- `_gc_expired_request_log`: the rows that are left. -/
def gcExpiredRequestLog (param : Option String) (now : Datetime) (rows : List LogRow) :
    Except Exn (List LogRow) :=
  if retentionDays param ≤ 0 then .ok rows
  else do
    let cutoff ← (now.minusDays (retentionDays param)).mapError .python
    pure (rows.filter fun row => !row.createdBefore cutoff)

/-- Created more than `n` days before `now`. -/
def LogRow.olderThan (n : Int) (now : Datetime) (row : LogRow) : Bool :=
  row.createDate.any fun t => t.OlderThan n now

/-- The rows that a setting is documented to leave. -/
def retained (value : String) (now : Datetime) (rows : List LogRow) : List LogRow :=
  match parseInt value with
  | some n => if 0 < n then rows.filter fun row => !row.olderThan n now else rows
  | none => rows

/-! ## One collection -/

variable {now : Datetime} {rows : List LogRow}

/-- With the cutoff `n` days back, the domain finds the rows of more than `n` days. -/
theorem createdBefore_eq_olderThan {cutoff : Datetime} {n : Int}
    (h : cutoff.micros + n * dayMicros = now.micros) (row : LogRow) :
    row.createdBefore cutoff = row.olderThan n now := by
  unfold LogRow.createdBefore LogRow.olderThan
  congr 1
  funext t
  rw [decide_eq_decide, Datetime.lt_def]
  unfold Datetime.OlderThan
  omega

/-- A row lies on the calendar, so none is older than a date before it. -/
theorem not_olderThan {n : Int} (h : (now.micros : Int) < n * dayMicros) (row : LogRow) :
    row.olderThan n now = false := by
  unfold LogRow.olderThan
  cases row.createDate with
  | none => rfl
  | some t =>
    rw [Option.any_some, decide_eq_false_iff_not]
    unfold Datetime.OlderThan
    omega

theorem gcExpiredRequestLog_of_nonpos {param : Option String} (h : retentionDays param ≤ 0) :
    gcExpiredRequestLog param now rows = .ok rows := if_pos h

theorem gcExpiredRequestLog_of_pos {param : Option String} (hpos : 0 < retentionDays param)
    (h : retentionDays param * dayMicros ≤ now.micros) :
    gcExpiredRequestLog param now rows =
      .ok (rows.filter fun row => !row.olderThan (retentionDays param) now) := by
  obtain ⟨cutoff, hcutoff, hmicros⟩ := Datetime.minusDays_eq (Int.le_of_lt hpos) h
  unfold gcExpiredRequestLog
  rw [if_neg (by omega), hcutoff]
  refine congrArg Except.ok (List.filter_congr fun row _ => ?_)
  rw [createdBefore_eq_olderThan hmicros row]

theorem gcExpiredRequestLog_of_overflow {param : Option String}
    (h : (now.micros : Int) < retentionDays param * dayMicros) :
    gcExpiredRequestLog param now rows = .error (.python "OverflowError") := by
  have hpos : ¬ retentionDays param ≤ 0 := by
    have hmicros : (0 : Int) ≤ now.micros := Int.natCast_nonneg _
    intro hle
    have hneg : retentionDays param * (dayMicros : Int) ≤ 0 :=
      Int.mul_nonpos_of_nonpos_of_nonneg hle (Int.natCast_nonneg _)
    omega
  unfold gcExpiredRequestLog
  rw [if_neg hpos, Datetime.minusDays_eq_error h]
  rfl

/-- What a collection with an unreadable setting deletes is what 30 days would. -/
theorem retentionDays_of_unparsable {value : String} (h : parseInt value = none) :
    retentionDays (some value) = 30 := by
  unfold retentionDays filledIn
  rw [Option.filter_some]
  split
  · rw [Option.getD_some, h, Option.getD_none]
  · decide

theorem retentionDays_of_parsed {value : String} {n : Int} (h : parseInt value = some n) :
    retentionDays (some value) = n := by
  have hfilled : value ≠ "" := by
    rintro rfl
    have hempty : parseInt "" = none := by decide
    rw [hempty] at h
    cases h
  unfold retentionDays filledIn
  rw [Option.filter_some, if_pos (by simpa using hfilled), Option.getD_some, h, Option.getD_some]

/-- A setting that reaches back beyond the calendar raises, where no row would have gone. -/
theorem gcExpiredRequestLog_beyond_calendar {value : String} {n : Int}
    (hparse : parseInt value = some n) (h : (now.micros : Int) < n * dayMicros) :
    gcExpiredRequestLog (some value) now rows = .error (.python "OverflowError") ∧
      retained value now rows = rows := by
  refine ⟨gcExpiredRequestLog_of_overflow (by rwa [retentionDays_of_parsed hparse]), ?_⟩
  unfold retained
  rw [hparse]
  dsimp only
  split
  · rw [List.filter_eq_self]
    intro row _
    rw [not_olderThan h row, Bool.not_false]
  · rfl

/-- When a setting is treated as its docstring says. -/
def SettingHonoured (value : String) (now : Datetime) (rows : List LogRow) : Prop :=
  match parseInt value with
  | some n => n * dayMicros ≤ now.micros
  | none => 30 * (dayMicros : Int) ≤ now.micros ∧ ∀ row ∈ rows, row.olderThan 30 now = false

/-- **Retention.**  The collection leaves what its docstring promises in exactly these cases. -/
theorem gcExpiredRequestLog_eq_retained_iff (value : String) (now : Datetime)
    (rows : List LogRow) :
    gcExpiredRequestLog (some value) now rows = .ok (retained value now rows) ↔
      SettingHonoured value now rows := by
  unfold retained SettingHonoured
  cases hparse : parseInt value with
  | some n =>
    have hdays := retentionDays_of_parsed hparse
    dsimp only
    rcases lt_or_ge (now.micros : Int) (n * dayMicros) with hover | hreach
    · rw [(gcExpiredRequestLog_beyond_calendar hparse hover).1]
      exact iff_of_false (fun h => by cases h) (not_le.mpr hover)
    · refine iff_of_true ?_ hreach
      rcases lt_or_ge 0 n with hpos | hnonpos
      · rw [if_pos hpos, gcExpiredRequestLog_of_pos (by rwa [hdays]) (by rwa [hdays]), hdays]
      · rw [if_neg (not_lt.mpr hnonpos), gcExpiredRequestLog_of_nonpos (by rwa [hdays])]
  | none =>
    have hdays := retentionDays_of_unparsable hparse
    dsimp only
    rcases lt_or_ge (now.micros : Int) (30 * dayMicros) with hover | hreach
    · rw [gcExpiredRequestLog_of_overflow (by rwa [hdays])]
      exact iff_of_false (fun h => by cases h) fun h => not_le.mpr hover h.1
    · rw [gcExpiredRequestLog_of_pos (by rw [hdays]; decide) (by rwa [hdays]), hdays,
        Except.ok.injEq, List.filter_eq_self]
      simp [hreach]

/-- The start of 2024. -/
def newYear : Datetime := ⟨738885 * dayMicros, by decide⟩

/-- A request answered on 1 December 2023. -/
def decemberRow : LogRow where
  id := 1
  createDate := some ⟨738854 * dayMicros, by decide⟩
  vals :=
    { requestId := "3f1c"
      userId := some 7
      authScheme := some "apikey"
      httpMethod := "GET"
      path := "/api/v1/ping"
      routePattern := some "/api/v1/ping"
      statusCode := 200
      durationMs := 12
      remoteAddr := none
      userAgent := none
      modelName := .null
      methodName := .null
      recordCount := 0
      errorCode := none
      requestBody := none
      responseSize := 17 }

/-- `forever` deletes the row it should keep, and a million days raise. -/
theorem gcExpiredRequestLog_forever :
    (parseInt "forever" = none ∧
      gcExpiredRequestLog (some "forever") newYear [decemberRow] = .ok [] ∧
      gcExpiredRequestLog (some "forever") newYear [decemberRow] ≠
        .ok (retained "forever" newYear [decemberRow])) ∧
    parseInt "1000000" = some 1000000 ∧
      gcExpiredRequestLog (some "1000000") newYear [decemberRow] =
        .error (.python "OverflowError") := by
  have hparse : parseInt "forever" = none := by decide
  have hmillion : parseInt "1000000" = some 1000000 := by decide
  have hgone : gcExpiredRequestLog (some "forever") newYear [decemberRow] = .ok [] := by
    have hdays := retentionDays_of_unparsable hparse
    rw [gcExpiredRequestLog_of_pos (by rw [hdays]; decide) (by rw [hdays]; decide), hdays]
    rfl
  refine ⟨⟨hparse, hgone, ?_⟩, hmillion,
    (gcExpiredRequestLog_beyond_calendar hmillion (by decide)).1⟩
  rw [hgone]
  unfold retained
  rw [hparse]
  intro h
  cases h

end SsiRest.RequestLog
