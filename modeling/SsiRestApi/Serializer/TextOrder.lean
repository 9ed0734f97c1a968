import SsiRestApi.Lib.Sortable
import SsiRestApi.Serializer.Serialize

/-!
# Dates and times as texts

A client that sorts the texts of `_serialize_datetime` and `_serialize_date` sorts by time:
months, days, hours, minutes and seconds are padded.  `strftime` does not pad the year, so this
is so among years of one length, such as all from 1000 on.  Microseconds have no place in the
texts, so times of one second have one text.

    texts are alike ↔ the times are to the second, and others sort as the times do
                                                                        (texts_sort)
-/

namespace SsiRest.Serializer

open Py

/-- What Python lets a `datetime` be. -/
structure DateTime.Valid (d : DateTime) : Prop where
  month : d.month ≤ 12
  day : d.day ≤ 31
  hour : d.hour ≤ 23
  minute : d.minute ≤ 59
  second : d.second ≤ 59
  microsecond : d.microsecond ≤ 999999

/-- `d < d'`: the first field that differs decides. -/
def DateTime.Before (d d' : DateTime) : Prop :=
  [d.year, d.month, d.day, d.hour, d.minute, d.second, d.microsecond] <
    [d'.year, d'.month, d'.day, d'.hour, d'.minute, d'.second, d'.microsecond]

/-- The date and the time of day, to the second. -/
def DateTime.toSecond (d : DateTime) : (Nat × Nat × Nat) × Nat × Nat × Nat :=
  ((d.year, d.month, d.day), d.hour, d.minute, d.second)

/-- The digits of a year. -/
def yearLength (year : Nat) : Nat := (Nat.toDigits 10 year).length

/-! ## Texts of the fields -/

theorem toList_pad2 {n : Nat} (h : n < 100) :
    (pad2 n).toList = [Nat.digitChar (n / 10), Nat.digitChar (n % 10)] := by
  unfold pad2
  by_cases hn : n < 10
  · rw [if_pos hn, String.toList_append, Nat.toString_eq_repr, Nat.toList_repr,
      Nat.toDigits_of_lt_base hn, Nat.div_eq_of_lt hn, Nat.mod_eq_of_lt hn]
    rfl
  · have hten := Nat.not_lt.mp hn
    rw [if_neg hn, Nat.toString_eq_repr, Nat.toList_repr, Nat.toDigits_of_base_le (by decide) hten,
      Nat.toDigits_of_lt_base (by omega)]
    rfl

/-- The padded fields sort. -/
theorem sortable_pad2 : Sortable (fun m n : Nat => m < n) (· < 100) fun n => (pad2 n).toList where
  length_eq m n hm hn := by rw [toList_pad2 hm, toList_pad2 hn]; rfl
  lt_iff m n hm hn := by
    rw [toList_pad2 hm, toList_pad2 hn]
    exact Sortable.twoDigits.lt_iff m n hm hn
  inj m n hm hn h := by
    rw [toList_pad2 hm, toList_pad2 hn] at h
    exact Sortable.twoDigits.inj m n hm hn h

/-! ## Dates -/

/-- `d < d'` of two dates. -/
def dateBefore (d d' : Nat × Nat × Nat) : Prop :=
  [d.1, d.2.1, d.2.2] < [d'.1, d'.2.1, d'.2.2]

def DateValid (d : Nat × Nat × Nat) : Prop := d.2.1 ≤ 12 ∧ d.2.2 ≤ 31

theorem sortable_dateText (k : Nat) :
    Sortable dateBefore (fun d => yearLength d.1 = k ∧ DateValid d)
      (fun d => (dateText d.1 d.2.1 d.2.2).toList) := by
  have hdate := (Sortable.decimal k).pair (sortable_pad2.pair sortable_pad2 ['-']) ['-']
  refine hdate.congr (fun d hd => ⟨hd.1, ?_, ?_⟩) (fun d d' => ?_) (fun d => ?_)
  · exact Nat.lt_of_le_of_lt hd.2.1 (by decide)
  · exact Nat.lt_of_le_of_lt hd.2.2 (by decide)
  · simp [dateBefore, Prod.lex_def, List.cons_lt_cons_iff]
  · simp [dateText]

/-! ## Times -/

def timeBefore (t t' : (Nat × Nat × Nat) × Nat × Nat × Nat) : Prop :=
  [t.1.1, t.1.2.1, t.1.2.2, t.2.1, t.2.2.1, t.2.2.2] <
    [t'.1.1, t'.1.2.1, t'.1.2.2, t'.2.1, t'.2.2.1, t'.2.2.2]

def TimeValid (t : (Nat × Nat × Nat) × Nat × Nat × Nat) : Prop :=
  DateValid t.1 ∧ t.2.1 ≤ 23 ∧ t.2.2.1 ≤ 59 ∧ t.2.2.2 ≤ 59

def timeText (t : (Nat × Nat × Nat) × Nat × Nat × Nat) : String :=
  dateText t.1.1 t.1.2.1 t.1.2.2 ++ "T" ++ pad2 t.2.1 ++ ":" ++ pad2 t.2.2.1 ++ ":" ++
    pad2 t.2.2.2 ++ "Z"

theorem DateTime.Valid.toSecond {d : DateTime} (h : d.Valid) : TimeValid d.toSecond :=
  ⟨⟨h.month, h.day⟩, h.hour, h.minute, h.second⟩

/-- One time is before another of a different second exactly if its second is. -/
theorem timeBefore_toSecond_iff {d d' : DateTime} :
    timeBefore d.toSecond d'.toSecond ↔ d.Before d' ∧ d.toSecond ≠ d'.toSecond := by
  simp only [timeBefore, DateTime.Before, DateTime.toSecond, List.cons_lt_cons_iff, ne_eq,
    Prod.mk.injEq, List.not_lt_nil, and_false, or_false]
  omega

theorem sortable_timeText (k : Nat) :
    Sortable timeBefore (fun t => yearLength t.1.1 = k ∧ TimeValid t)
      (fun t => (timeText t).toList) := by
  have htime := sortable_pad2.pair (sortable_pad2.pair sortable_pad2 [':']) [':']
  have hsplit := ((sortable_dateText k).pair htime ['T']).append ['Z']
  refine hsplit.congr (fun t ht => ⟨⟨ht.1, ht.2.1⟩, ?_, ?_, ?_⟩) (fun t t' => ?_) (fun t => ?_)
  · exact Nat.lt_of_le_of_lt ht.2.2.1 (by decide)
  · exact Nat.lt_of_le_of_lt ht.2.2.2.1 (by decide)
  · exact Nat.lt_of_le_of_lt ht.2.2.2.2 (by decide)
  · simp [timeBefore, dateBefore, Prod.lex_def, List.cons_lt_cons_iff, Prod.ext_iff]
    omega
  · simp [timeText]

/-! ## Sorting -/

theorem length_pad2 {n : Nat} (h : n < 100) : (pad2 n).toList.length = 2 := by
  rw [toList_pad2 h]
  rfl

theorem length_dateText {d : Nat × Nat × Nat} (h : DateValid d) :
    (dateText d.1 d.2.1 d.2.2).toList.length = yearLength d.1 + 6 := by
  have hmonth := length_pad2 (Nat.lt_of_le_of_lt h.1 (by decide : 12 < 100))
  have hday := length_pad2 (Nat.lt_of_le_of_lt h.2 (by decide : 31 < 100))
  simp only [dateText, String.toList_append, List.length_append, hmonth, hday, yearLength,
    Nat.toString_eq_repr, Nat.toList_repr]
  rfl

theorem length_timeText {t : (Nat × Nat × Nat) × Nat × Nat × Nat} (h : TimeValid t) :
    (timeText t).toList.length = yearLength t.1.1 + 16 := by
  have hdate := length_dateText h.1
  have hhour := length_pad2 (Nat.lt_of_le_of_lt h.2.1 (by decide : 23 < 100))
  have hminute := length_pad2 (Nat.lt_of_le_of_lt h.2.2.1 (by decide : 59 < 100))
  have hsecond := length_pad2 (Nat.lt_of_le_of_lt h.2.2.2 (by decide : 59 < 100))
  simp only [timeText, String.toList_append, List.length_append, hdate, hhour, hminute, hsecond]
  rfl

/-- Sortable texts that show the class of their value tell all values apart. -/
theorem eq_iff_of_sortable {α : Type} {lt : α → α → Prop} {P : α → Prop} {width : α → Nat}
    {text : α → String} {c : Nat}
    (h : ∀ k, Sortable lt (fun a => width a = k ∧ P a) fun a => (text a).toList)
    (hlength : ∀ a, P a → (text a).toList.length = width a + c) {a b : α} (ha : P a) (hb : P b) :
    text a = text b ↔ a = b := by
  refine ⟨fun he => ?_, congrArg text⟩
  have hwidth : width b = width a := by
    have := hlength a ha
    rw [he, hlength b hb] at this
    omega
  exact (h (width a)).inj a b ⟨rfl, ha⟩ ⟨hwidth, hb⟩ (congrArg String.toList he)

theorem serializeDatetime_eq (d : DateTime) :
    serializeDatetime (.datetime d) = .ok (.json (.str (timeText d.toSecond))) := rfl

theorem serializeDate_eq (year month day : Nat) :
    serializeDate (.date year month day) = .ok (.json (.str (dateText year month day))) := rfl

theorem str_inj {a b : String}
    (h : (Except.ok (Value.json (.str a)) : Except Failure Value) = .ok (.json (.str b))) : a = b :=
  Json.str.inj (Value.json.inj (Except.ok.inj h))

/-- **Texts sort as times.**  The texts of two datetimes are alike exactly if the datetimes are of
one second, and among years of one length those of different seconds sort as the datetimes do; the
texts of two dates are alike exactly if the dates are, and sort as they do. -/
theorem texts_sort :
    (∀ d d' a b, d.Valid → d'.Valid → serializeDatetime (.datetime d) = .ok (.json (.str a)) →
      serializeDatetime (.datetime d') = .ok (.json (.str b)) →
      (a = b ↔ d.toSecond = d'.toSecond) ∧ (yearLength d.year = yearLength d'.year →
        (a < b ↔ d.Before d' ∧ d.toSecond ≠ d'.toSecond))) ∧
    ∀ d d' a b, DateValid d → DateValid d' →
      serializeDate (.date d.1 d.2.1 d.2.2) = .ok (.json (.str a)) →
      serializeDate (.date d'.1 d'.2.1 d'.2.2) = .ok (.json (.str b)) →
      (a = b ↔ d = d') ∧ (yearLength d.1 = yearLength d'.1 → (a < b ↔ dateBefore d d')) := by
  constructor
  · intro d d' a b hd hd' ha hb
    rw [serializeDatetime_eq] at ha hb
    obtain rfl := str_inj ha
    obtain rfl := str_inj hb
    refine ⟨eq_iff_of_sortable sortable_timeText (fun _ => length_timeText) hd.toSecond
      hd'.toSecond, fun hyear => ?_⟩
    rw [← timeBefore_toSecond_iff]
    exact (sortable_timeText _).lt_iff d.toSecond d'.toSecond ⟨hyear, hd.toSecond⟩
      ⟨rfl, hd'.toSecond⟩
  · intro d d' a b hd hd' ha hb
    rw [serializeDate_eq] at ha hb
    obtain rfl := str_inj ha
    obtain rfl := str_inj hb
    refine ⟨eq_iff_of_sortable sortable_dateText (fun _ => length_dateText) hd hd',
      fun hyear => ?_⟩
    exact (sortable_dateText _).lt_iff d d' ⟨hyear, hd⟩ ⟨rfl, hd'⟩

/-- Two times of the last second of a year, and the first one of the next. -/
def newYear : DateTime × DateTime × DateTime :=
  (⟨1999, 12, 31, 23, 59, 59, 0⟩, ⟨1999, 12, 31, 23, 59, 59, 999999⟩, ⟨2000, 1, 1, 0, 0, 0, 0⟩)

theorem texts_sort_newYear :
    timeText newYear.1.toSecond = timeText newYear.2.1.toSecond ∧
      timeText newYear.2.1.toSecond < timeText newYear.2.2.toSecond := by
  have hvalid : newYear.1.Valid ∧ newYear.2.1.Valid ∧ newYear.2.2.Valid := by
    refine ⟨⟨?_, ?_, ?_, ?_, ?_, ?_⟩, ⟨?_, ?_, ?_, ?_, ?_, ?_⟩, ⟨?_, ?_, ?_, ?_, ?_, ?_⟩⟩ <;> decide
  obtain ⟨hfirst, hsecond, hthird⟩ := hvalid
  constructor
  · exact (texts_sort.1 newYear.1 newYear.2.1 _ _ hfirst hsecond (serializeDatetime_eq _)
      (serializeDatetime_eq _)).1.mpr rfl
  · refine ((texts_sort.1 newYear.2.1 newYear.2.2 _ _ hsecond hthird (serializeDatetime_eq _)
      (serializeDatetime_eq _)).2 (by decide)).mpr ⟨?_, by decide⟩
    unfold DateTime.Before
    decide

end SsiRest.Serializer
