import SsiRestApi.Lib.Collect
import SsiRestApi.RecordEndpoints

/-!
# The ids of a request

`parse_ids`, in its two copies, against the integers that are written in a value.  It
leaves the conversion of items to `int`, which reads booleans as numbers, cuts fractions
off and raises on the rest.

    ids exactly as written or a 422 ↔ no boolean, and every item is an integer
                                                                  (recordIds_iff)
-/

namespace SsiRest

open Py Tx

/-- `parse_ids` of the custom endpoints. -/
def CustomEndpoint.parseIds (loads : String → Except String Json) : Json → Except Exn (List Int)
  | .null => .ok []
  | .str "" => .ok []
  | .int i => .ok [i]
  | .bool b => .ok [if b then 1 else 0]
  | .str s =>
    let stripped := strip s
    if startsWith stripped "[" then
      match loads stripped with
      | .error message =>
        .error (RestAuthError "validation_error" ("Invalid JSON: " ++ message) 422)
      | .ok decoded => do (← MethodCall.iterate decoded).mapM OrmController.toInt
    else
      ((splitOn ',' stripped).filter fun item => strip item ≠ "").mapM fun item =>
        OrmController.toInt (.str item)
  | .arr items => items.mapM OrmController.toInt
  | _ =>
    .error (RestAuthError "validation_error"
      "ids must be an integer, a comma-separated string, or a list." 422)

namespace RecordIds

open OrmController MethodCall RecordEndpoints

/-! ## What is written -/

/-- The integer a value stands for: a number without a fraction, or text that `int` reads. -/
def writtenInt : Json → Option Int
  | .int i => some i
  | .float (.fin q _) => if q.den = 1 then some q.num else none
  | .str s => parseInt s
  | _ => none

section

variable (loads : String → Except String Json)

/-- The ids a value lists, if integers are what it lists. -/
def writtenIds : Json → Option (List Int)
  | .null => some []
  | .int i => some [i]
  | .str s =>
    if startsWith (strip s) "[" then
      match loads (strip s) with
      | .ok (.arr items) => items.mapM writtenInt
      | _ => none
    else
      ((splitOn ',' (strip s)).filter fun item => strip item ≠ "").mapM fun item =>
        writtenInt (.str item)
  | .arr items => items.mapM writtenInt
  | _ => none

/-- The ids that are written, or the refusal of a value. -/
def ExactOrRefused (v : Json) : Except Exn (List Int) → Prop
  | .ok ids => writtenIds loads v = some ids
  | .error e => ∃ message, e = RestAuthError "validation_error" message 422

/-- The value is no boolean, and all it lists are integers. -/
def ListsIntegers : Json → Prop
  | .bool _ => False
  | .arr items => ∀ item ∈ items, (writtenInt item).isSome = true
  | .str s =>
    if startsWith (strip s) "[" then
      ∀ decoded, loads (strip s) = .ok decoded →
        ∃ items, decoded = .arr items ∧ ∀ item ∈ items, (writtenInt item).isSome = true
    else ∀ item ∈ splitOn ',' (strip s), strip item ≠ "" → (parseInt item).isSome = true
  | _ => True

/-- An operation on the ids of a value does what it does on the list of the written integers,
or fails. -/
def OnWritten {α : Type} (v : Json) (operation : Json → Except Exn α) : Prop :=
  (∃ ids, writtenIds loads v = some ids ∧ operation v = operation (.arr (ids.map Json.int))) ∨
    ∃ e, operation v = .error e

end

/-! ## One item -/

theorem toInt_of_written {v : Json} {i : Int} (h : writtenInt v = some i) : toInt v = .ok i := by
  unfold writtenInt at h
  split at h
  · cases h
    rfl
  · next q repr =>
    split at h
    · next hden =>
      cases h
      have hpyInt : pyInt (.float (.fin q repr)) = .ok q.num := by
        simp only [pyInt, hden, Int.cast_ofNat_Int, Int.tdiv_one]
      rw [toInt, hpyInt]
      rfl
    · cases h
  · next s =>
    have hpyInt : pyInt (.str s) = .ok i := by rw [pyInt, h]
    rw [toInt, hpyInt]
    rfl
  · cases h

/-- What `int` raises is never a refusal. -/
theorem toInt_error {v : Json} {e : Exn} (h : toInt v = .error e) : ∃ type, e = .python type := by
  unfold toInt at h
  cases hv : pyInt v with
  | ok i =>
    rw [hv] at h
    cases h
  | error type =>
    rw [hv] at h
    cases h
    exact ⟨type, rfl⟩

/-! ## Lists -/

theorem isSome_of_mapM {items : List Json} {ids : List Int}
    (h : items.mapM writtenInt = some ids) : ∀ item ∈ items, (writtenInt item).isSome = true := by
  induction items generalizing ids with
  | nil => exact fun item hitem => nomatch hitem
  | cons item items ih =>
    rw [List.mapM_cons] at h
    obtain ⟨i, hi, h⟩ := Option.bind_eq_some_iff.mp h
    obtain ⟨rest, hrest, -⟩ := Option.bind_eq_some_iff.mp h
    refine List.forall_mem_cons.mpr ⟨?_, ih hrest⟩
    rw [hi]
    rfl

theorem mapM_of_written {items : List Json} (h : ∀ item ∈ items, (writtenInt item).isSome = true) :
    ∃ ids, items.mapM toInt = .ok ids ∧ items.mapM writtenInt = some ids := by
  induction items with
  | nil => exact ⟨[], rfl, rfl⟩
  | cons item items ih =>
    obtain ⟨hitem, hitems⟩ := List.forall_mem_cons.mp h
    obtain ⟨i, hi⟩ := Option.isSome_iff_exists.mp hitem
    obtain ⟨ids, hids, hwritten⟩ := ih hitems
    refine ⟨i :: ids, ?_, ?_⟩
    · rw [List.mapM_cons, toInt_of_written hi, hids]
      rfl
    · rw [List.mapM_cons, hi, hwritten]
      rfl

/-- The conversion of a list is exact when every item is an integer; else it returns other ids
or raises. -/
theorem mapM_toInt_iff {loads : String → Except String Json} {v : Json} {items : List Json}
    (hv : writtenIds loads v = items.mapM writtenInt) :
    ExactOrRefused loads v (items.mapM toInt) ↔
      ∀ item ∈ items, (writtenInt item).isSome = true := by
  constructor
  · intro h
    cases hids : items.mapM toInt with
    | ok ids =>
      rw [hids] at h
      have hwritten : writtenIds loads v = some ids := h
      rw [hv] at hwritten
      exact isSome_of_mapM hwritten
    | error e =>
      rw [hids] at h
      obtain ⟨message, rfl⟩ := h
      obtain ⟨item, -, hitem⟩ := Collect.exists_of_mapM_error hids
      obtain ⟨type, htype⟩ := toInt_error hitem
      cases htype
  · intro h
    obtain ⟨ids, hids, hwritten⟩ := mapM_of_written h
    rw [hids]
    exact hv.trans hwritten

/-! ## Values -/

section

variable (loads : String → Except String Json)

/-- The empty text is no case of its own. -/
theorem parseIds_str (s : String) :
    parseIds loads (.str s) =
      if startsWith (strip s) "[" then do
        let decoded ← parseJsonParam loads (.str (strip s)) (.arr [])
        let items ← iterate decoded
        items.mapM toInt
      else
        ((splitOn ',' (strip s)).filter fun item => strip item ≠ "").mapM fun item =>
          toInt (.str item) := by
  by_cases hs : s = ""
  · subst hs
    rfl
  · rw [parseIds]
    exact hs

/-- The two copies of `parse_ids` agree. -/
theorem customEndpoint_parseIds (v : Json) :
    CustomEndpoint.parseIds loads v = parseIds loads v := by
  cases v with
  | str s =>
    rw [parseIds_str]
    by_cases hs : s = ""
    · subst hs
      rfl
    · rw [CustomEndpoint.parseIds]
      · cases hloads : loads (strip s) with
        | error message =>
          simp only [parseJsonParam, hloads, Except.mapError, bind, Except.bind]
        | ok decoded => simp only [parseJsonParam, hloads, Except.mapError, bind, Except.bind]
      · exact hs
  | _ => rfl

theorem writtenIds_str_of_separated {s : String} (h : startsWith (strip s) "[" = false) :
    writtenIds loads (.str s) =
      (((splitOn ',' (strip s)).filter fun item => strip item ≠ "").map Json.str).mapM
        writtenInt := by
  rw [writtenIds, if_neg (Bool.eq_false_iff.mp h), List.mapM_map]
  rfl

/-- Text of a list with anything but a list in it is neither exact nor refused. -/
theorem not_exactOrRefused_iterate {v decoded : Json} (hv : writtenIds loads v = none)
    (hdecoded : ∀ items, decoded ≠ .arr items) :
    ¬ ExactOrRefused loads v (iterate decoded >>= fun items => items.mapM toInt) := by
  intro h
  cases hresult : iterate decoded >>= fun items => items.mapM toInt with
  | ok ids =>
    rw [hresult] at h
    have hwritten : writtenIds loads v = some ids := h
    rw [hv] at hwritten
    cases hwritten
  | error e =>
    rw [hresult] at h
    obtain ⟨message, rfl⟩ := h
    cases hitems : iterate decoded with
    | error e =>
      cases decoded with
      | arr items => exact hdecoded items rfl
      | obj fields => cases hitems
      | str s => cases hitems
      | null | bool b | int i | float x | foreign =>
        rw [hitems] at hresult
        cases hitems
        cases hresult
    | ok items =>
      rw [hitems] at hresult
      obtain ⟨item, -, hitem⟩ := Collect.exists_of_mapM_error hresult
      obtain ⟨type, htype⟩ := toInt_error hitem
      cases htype

/-- A text of items between commas. -/
theorem exactOrRefused_separated {s : String} (hbracket : startsWith (strip s) "[" = false) :
    ExactOrRefused loads (.str s) (parseIds loads (.str s)) ↔ ListsIntegers loads (.str s) := by
  have hmap : ((splitOn ',' (strip s)).filter fun item => strip item ≠ "").mapM
      (fun item => toInt (.str item)) =
      (((splitOn ',' (strip s)).filter fun item => strip item ≠ "").map Json.str).mapM
        toInt := by
    rw [List.mapM_map]
    rfl
  rw [parseIds_str, ListsIntegers, hbracket, if_neg Bool.false_ne_true, if_neg Bool.false_ne_true,
    hmap, mapM_toInt_iff (writtenIds_str_of_separated loads hbracket), List.forall_mem_map]
  simp only [List.mem_filter, decide_eq_true_eq, and_imp]
  rfl

/-- A text that `json.loads` is asked for. -/
theorem exactOrRefused_bracketed {s : String} (hbracket : startsWith (strip s) "[" = true) :
    ExactOrRefused loads (.str s) (parseIds loads (.str s)) ↔ ListsIntegers loads (.str s) := by
  rw [parseIds_str, ListsIntegers, if_pos hbracket, if_pos hbracket]
  have hwritten : writtenIds loads (.str s) = match loads (strip s) with
      | .ok (.arr items) => items.mapM writtenInt
      | _ => none := by
    rw [writtenIds, if_pos hbracket]
  cases hloads : loads (strip s) with
  | error message =>
    have hrefused : parseJsonParam loads (.str (strip s)) (.arr []) =
        .error (RestAuthError "validation_error" ("Invalid JSON: " ++ message) 422) := by
      rw [parseJsonParam, hloads]
      rfl
    rw [hrefused]
    refine iff_of_true ⟨_, rfl⟩ fun decoded hdecoded => ?_
    cases hdecoded
  | ok decoded =>
    have hparam : parseJsonParam loads (.str (strip s)) (.arr []) = .ok decoded := by
      rw [parseJsonParam, hloads]
      rfl
    rw [hloads] at hwritten
    rw [hparam]
    by_cases harr : ∃ items, decoded = .arr items
    · obtain ⟨items, rfl⟩ := harr
      refine (mapM_toInt_iff hwritten).trans ⟨fun h decoded hdecoded => ?_, fun h => ?_⟩
      · cases hdecoded
        exact ⟨items, rfl, h⟩
      · obtain ⟨items', hitems, h⟩ := h _ rfl
        cases hitems
        exact h
    · have hnot : ∀ items, decoded ≠ .arr items := fun items hitems => harr ⟨items, hitems⟩
      refine iff_of_false (not_exactOrRefused_iterate loads ?_ hnot) fun h => ?_
      · rw [hwritten]
        split
        · next items hitems => exact absurd (Except.ok.inj hitems) (hnot items)
        · rfl
      · obtain ⟨items, hitems, -⟩ := h decoded rfl
        exact hnot items hitems

theorem exactOrRefused_str (s : String) :
    ExactOrRefused loads (.str s) (parseIds loads (.str s)) ↔ ListsIntegers loads (.str s) := by
  cases hbracket : startsWith (strip s) "[" with
  | false => exact exactOrRefused_separated loads hbracket
  | true => exact exactOrRefused_bracketed loads hbracket

theorem exactOrRefused_iff (v : Json) :
    ExactOrRefused loads v (parseIds loads v) ↔ ListsIntegers loads v := by
  cases v with
  | null => exact iff_of_true rfl trivial
  | int i => exact iff_of_true rfl trivial
  | bool b => exact iff_of_false (fun h => nomatch h) id
  | float x => exact iff_of_true ⟨_, rfl⟩ trivial
  | obj fields => exact iff_of_true ⟨_, rfl⟩ trivial
  | foreign => exact iff_of_true ⟨_, rfl⟩ trivial
  | arr items => exact mapM_toInt_iff rfl
  | str s => exact exactOrRefused_str loads s

/-! ## Operations -/

theorem parseIds_ints (ids : List Int) : parseIds loads (.arr (ids.map Json.int)) = .ok ids := by
  rw [parseIds, Collect.mapM_ok_iff, List.forall₂_map_left_iff]
  exact List.forall₂_same.mpr fun i _ => rfl

/-- An operation that takes a value for the ids it parses to, and fails where they do not parse. -/
theorem onWritten_of_parse {α : Type} {v : Json} (h : ListsIntegers loads v)
    {operation : Json → Except Exn α}
    (hcongr : ∀ w, parseIds loads v = parseIds loads w → operation v = operation w)
    (hfails : ∀ e, parseIds loads v = .error e → ∃ e', operation v = .error e') :
    OnWritten loads v operation := by
  have hexact := (exactOrRefused_iff loads v).mpr h
  cases hids : parseIds loads v with
  | error e => exact Or.inr (hfails e hids)
  | ok ids =>
    rw [hids] at hexact
    exact Or.inl ⟨ids, hexact, hcongr _ (hids.trans (parseIds_ints loads ids).symm)⟩

variable {σ : Type} (orm : Orm σ) (app : Application σ)

theorem ormRead_onWritten {v : Json} (h : ListsIntegers loads v) (caller : Caller)
    (model : String) (kwargs : Kw) (s : σ) :
    OnWritten loads v fun ids => ormRead orm loads caller model ids kwargs s := by
  refine onWritten_of_parse loads h (fun w hw => ?_) fun e he => ?_
  · simp only [ormRead, hw]
  · unfold ormRead
    cases resolveTarget orm model with
    | error e' => exact ⟨e', rfl⟩
    | ok target =>
      simp only [he]
      exact ⟨e, rfl⟩

theorem ormWrite_onWritten {v : Json} (h : ListsIntegers loads v) (caller : Caller)
    (model : String) (vals : Json) (kwargs : Kw) (s : σ) :
    OnWritten loads v fun ids => ormWrite orm loads caller model ids vals kwargs s := by
  refine onWritten_of_parse loads h (fun w hw => ?_) fun e he => ?_
  · simp only [ormWrite, hw]
  · unfold ormWrite
    cases resolveTarget orm model with
    | error e' => exact ⟨e', rfl⟩
    | ok target =>
      cases vals with
      | null => exact ⟨_, rfl⟩
      | _ =>
        simp only [he]
        exact ⟨e, rfl⟩

theorem ormUnlink_onWritten {v : Json} (h : ListsIntegers loads v) (caller : Caller)
    (model : String) (s : σ) :
    OnWritten loads v fun ids => ormUnlink orm loads caller model ids s := by
  refine onWritten_of_parse loads h (fun w hw => ?_) fun e he => ?_
  · simp only [ormUnlink, hw]
  · unfold ormUnlink
    cases resolveTarget orm model with
    | error e' => exact ⟨e', rfl⟩
    | ok target =>
      simp only [he]
      exact ⟨e, rfl⟩

theorem ormCall_onWritten {v : Json} (h : ListsIntegers loads v) (caller : Caller)
    (model method : String) (kwargs : Kw) (s : σ) :
    OnWritten loads v fun ids => ormCall app loads caller model method ids kwargs s := by
  refine onWritten_of_parse loads h (fun w hw => ?_) fun e he => ?_
  · simp only [ormCall, hw]
  · unfold ormCall
    cases resolveModel app.repr app.models model with
    | error e' => exact ⟨e', rfl⟩
    | ok target =>
      cases hfunc : getPublicMethod target (some method) with
      | error e' => exact ⟨e', by simp only [hfunc, bind, Except.bind]⟩
      | ok func => exact ⟨e, by simp only [hfunc, he, bind, Except.bind]⟩

theorem runModelMethod_onWritten {v : Json} (h : ListsIntegers loads v)
    (irModel : List (Row String)) (caller : Caller) (endpoint : Row CustomEndpoint.Endpoint)
    (kwargs : Kw) (s : σ) :
    OnWritten loads v fun ids =>
      runModelMethod app loads irModel caller endpoint ids kwargs s := by
  refine onWritten_of_parse loads h (fun w hw => ?_) fun e he => ?_
  · simp only [runModelMethod, hw]
  · unfold runModelMethod
    cases targetModel app irModel endpoint with
    | error e' => exact ⟨e', rfl⟩
    | ok target =>
      cases hfunc : getPublicMethod target endpoint.val.methodName with
      | error e' => exact ⟨e', by simp only [hfunc, bind, Except.bind]⟩
      | ok func => exact ⟨e, by simp only [hfunc, he, bind, Except.bind]⟩

end

/-! ## Exactly as written -/

/-- **Record ids.**  Both copies of `parse_ids` return the written integers in order or refuse the
value with a 422 exactly when the value is no boolean and all it lists are integers; reading,
writing, deleting and calling then work on the written records alone. -/
theorem recordIds_iff (loads : String → Except String Json) (v : Json) :
    (ExactOrRefused loads v (MethodCall.parseIds loads v) ↔ ListsIntegers loads v) ∧
      (ExactOrRefused loads v (CustomEndpoint.parseIds loads v) ↔ ListsIntegers loads v) ∧
      (ListsIntegers loads v → ∀ {σ : Type} (orm : Orm σ) (app : Application σ)
        (irModel : List (Row String)) (caller : Caller) (endpoint : Row CustomEndpoint.Endpoint)
        (model method : String) (vals : Json) (kwargs : Kw) (s : σ),
        OnWritten loads v (fun ids => ormRead orm loads caller model ids kwargs s) ∧
          OnWritten loads v (fun ids => ormWrite orm loads caller model ids vals kwargs s) ∧
          OnWritten loads v (fun ids => ormUnlink orm loads caller model ids s) ∧
          OnWritten loads v (fun ids => ormCall app loads caller model method ids kwargs s) ∧
          OnWritten loads v
            (fun ids => runModelMethod app loads irModel caller endpoint ids kwargs s)) := by
  refine ⟨exactOrRefused_iff loads v, ?_, ?_⟩
  · rw [customEndpoint_parseIds]
    exact exactOrRefused_iff loads v
  · intro h σ orm app irModel caller endpoint model method vals kwargs s
    exact ⟨ormRead_onWritten loads orm h caller model kwargs s,
      ormWrite_onWritten loads orm h caller model vals kwargs s,
      ormUnlink_onWritten loads orm h caller model s,
      ormCall_onWritten loads app h caller model method kwargs s,
      runModelMethod_onWritten loads app h irModel caller endpoint kwargs s⟩

/-- Records without values, of which a state keeps the ids. -/
def partners : Records (List Int) where
  create _ _ s := .ok ([], s)
  write _ _ _ s := .ok s
  unlink _ ids s := .ok (s.filter fun id => id ∉ ids)
  hasRecord id s := s.contains (id : Int)
  checkRead _ _ _ := .ok ()
  fieldType _ := none
  stream _ _ _ _ := .error (.python "ValueError")
  serialize _ _ _ _ := .ok (.arr [])

def partnerOrm : Orm (List Int) := ⟨fun _ => some partners, fun _ => "", fun _ => ""⟩

def noApplication : Application (List Int) where
  models _ := none
  repr _ := ""
  serverAction _ _ _ s := .ok (.value .null, s)
  handler _ _ _ _ _ := .error (.python "NotImplementedError")

/-- `ids=[3,7]` deletes these two. -/
theorem recordIds_of_list :
    let loads : String → Except String Json := fun _ => .ok (.arr [.int 3, .int 7])
    let unlink := fun ids => ormUnlink partnerOrm loads ⟨2, 1, none⟩ "res.partner" ids [1, 3, 7]
    OnWritten loads (.str "[3,7]") unlink ∧ unlink (.str "[3,7]") = .ok [1] := by
  intro loads unlink
  have hids : ListsIntegers loads (.str "[3,7]") := by
    intro decoded hdecoded
    cases hdecoded
    exact ⟨_, rfl, by decide⟩
  refine ⟨((recordIds_iff loads (.str "[3,7]")).2.2 hids partnerOrm noApplication [] ⟨2, 1, none⟩
    ⟨1, ⟨true, "partners", .POST, .modelMethod, some 1, some "read", none, [], false⟩⟩
    "res.partner" "read" .null [] [1, 3, 7]).2.2.1, rfl⟩

/-- `[1.5]` deletes record 1, and so does `true`; text that is no number is a server error. -/
theorem not_exactOrRefused_fraction :
    let fraction : Json := .arr [.float (.fin ⟨3, 2, by decide, by decide⟩ "1.5")]
    let loads : String → Except String Json := fun _ => .error ""
    let unlink := fun ids => ormUnlink partnerOrm loads ⟨2, 1, none⟩ "res.partner" ids [1, 3, 7]
    (¬ ExactOrRefused loads fraction (MethodCall.parseIds loads fraction)) ∧
      (¬ ExactOrRefused loads fraction (CustomEndpoint.parseIds loads fraction)) ∧
      (¬ OnWritten loads fraction unlink) ∧ unlink fraction = .ok [3, 7] ∧
      MethodCall.parseIds loads (.bool true) = .ok [1] ∧
      MethodCall.parseIds loads (.str "abc") = .error (.python "ValueError") := by
  intro fraction loads unlink
  have hparsed : MethodCall.parseIds loads fraction = .ok [1] := rfl
  have hwritten : writtenIds loads fraction = none := by decide +kernel
  have hunlink : unlink fraction = .ok [3, 7] := rfl
  have hnot : ¬ ExactOrRefused loads fraction (MethodCall.parseIds loads fraction) := by
    rw [hparsed, ExactOrRefused, hwritten]
    exact fun h => nomatch h
  refine ⟨hnot, ?_, ?_, hunlink, rfl, rfl⟩
  · rw [customEndpoint_parseIds]
    exact hnot
  · rintro (⟨ids, hids, -⟩ | ⟨e, he⟩)
    · rw [hwritten] at hids
      cases hids
    · rw [hunlink] at he
      cases he

end RecordIds

end SsiRest
