import SsiRestApi.Serializer.Shorthand

/-!
# Specifications that are served or refused

`_specification_from_query` makes a dictionary of any value, and validation goes through
it field by field.  What is no dictionary on the way is an error of Python, unless a fault
of an earlier field is a `ValidationError` first.

    served as what it denotes, or refused ↔ the value is empty, or a dictionary in which
      validation does not trip                                     (servedOrRefused_iff)
-/

namespace SsiRest.Serializer

open Py Observe

/-! ## Tripping -/

/-- A specification without a fault. -/
def Valid (S : Schema) (raw : RawSpecification) (model : String) : Prop :=
  ∃ s, raw = .ofSpecification s ∧ ¬ Faulty S s model

/-- Going through the fields in order, validation comes to what it takes for a dictionary and is
none, and the fields before have no fault. -/
inductive Trips (S : Schema) : RawSpecification → String → Prop where
  | noItems (model : String) : Trips S .noItems model
  | atom {name model : String} {rest : RawSpecification} {field : Field}
      (hfield : S.fields model name = some field) : Trips S (.atom name rest) model
  | nested {name model : String} {nested rest : RawSpecification} {field : Field}
      (hfield : S.fields model name = some field) (hrelational : field.type.relational = true)
      (hnonempty : nested.isEmpty = false) (h : Trips S nested field.comodel) :
      Trips S (.field name nested rest) model
  | rest {name model : String} {nested rest : RawSpecification}
      (hfirst : Valid S (.field name nested .nil) model) (h : Trips S rest model) :
      Trips S (.field name nested rest) model

section

variable {S : Schema}

theorem validateRaw_of_valid {raw : RawSpecification} {model : String} (h : Valid S raw model) :
    validateRaw S raw model = .ok () := by
  obtain ⟨s, rfl, hs⟩ := h
  rw [validateRaw_ofSpecification]
  exact validate_ok_iff.mpr hs

theorem valid_of_validateRaw {raw : RawSpecification} {model : String}
    (h : validateRaw S raw model = .ok ()) : Valid S raw model := by
  have hraw := eq_ofSpecification_of_validate h
  rw [hraw, validateRaw_ofSpecification] at h
  exact ⟨_, hraw, validate_ok_iff.mp h⟩

/-- A field is validated, then the rest. -/
theorem validateRaw_field (name : String) (nested rest : RawSpecification) (model : String) :
    validateRaw S (.field name nested rest) model =
      (validateRaw S (.field name nested .nil) model >>= fun _ => validateRaw S rest model) := by
  rw [validateRaw, validateRaw]
  cases S.fields model name with
  | none => rfl
  | some field =>
    dsimp only
    split
    · rfl
    · split
      · cases validateRaw S nested field.comodel <;> rfl
      · rfl

/-- The field is a relation, and validation trips in what is nested under it. -/
def TripsWithin (S : Schema) (name : String) (nested : RawSpecification) (model : String) : Prop :=
  ∃ field, S.fields model name = some field ∧ field.type.relational = true ∧
    nested.isEmpty = false ∧ Trips S nested field.comodel

theorem trips_field_iff {name model : String} {nested rest : RawSpecification} :
    Trips S (.field name nested rest) model ↔ TripsWithin S name nested model ∨
      Valid S (.field name nested .nil) model ∧ Trips S rest model := by
  constructor
  · rintro (_ | _ | ⟨hfield, hrelational, hnonempty, h⟩ | ⟨hvalid, h⟩)
    · exact Or.inl ⟨_, hfield, hrelational, hnonempty, h⟩
    · exact Or.inr ⟨hvalid, h⟩
  · rintro (⟨field, hfield, hrelational, hnonempty, h⟩ | ⟨hvalid, h⟩)
    · exact .nested hfield hrelational hnonempty h
    · exact .rest hvalid h

/-- Validation passes, trips, or raises a `ValidationError`. -/
def ValidationEnds (trips : Prop) (result : Except Failure Unit) : Prop :=
  (¬ trips ∧ result = .ok ()) ∨ (trips ∧ result = .error attributeError) ∨
    (¬ trips ∧ ∃ message, result = .error (validationError message))

/-- One field ends as what is nested under it does, if it is a relation. -/
theorem validationEnds_single (name : String) {nested : RawSpecification}
    (ih : ∀ model, ValidationEnds (Trips S nested model) (validateRaw S nested model))
    (model : String) :
    ValidationEnds (TripsWithin S name nested model)
      (validateRaw S (.field name nested .nil) model) := by
  rw [validateRaw]
  cases hfield : S.fields model name with
  | none =>
    refine Or.inr (Or.inr ⟨?_, _, rfl⟩)
    rintro ⟨field, hsome, -⟩
    rw [hfield] at hsome
    cases hsome
  | some field =>
    have hwithin : TripsWithin S name nested model ↔ field.type.relational = true ∧
        nested.isEmpty = false ∧ Trips S nested field.comodel := by
      rw [TripsWithin, hfield]
      simp only [Option.some.injEq, exists_eq_left']
    rw [hwithin]
    dsimp only
    split
    · next hempty =>
      refine Or.inl ⟨?_, rfl⟩
      rintro ⟨-, hnonempty, -⟩
      rw [hempty] at hnonempty
      cases hnonempty
    · next hempty =>
      have hnonempty : nested.isEmpty = false := by simpa using hempty
      split
      · next hrelational =>
        rw [and_iff_right hrelational, and_iff_right hnonempty]
        rcases ih field.comodel with ⟨hno, hok⟩ | ⟨h, herror⟩ | ⟨hno, message, herror⟩
        · rw [hok]
          exact Or.inl ⟨hno, rfl⟩
        · rw [herror]
          exact Or.inr (Or.inl ⟨h, rfl⟩)
        · rw [herror]
          exact Or.inr (Or.inr ⟨hno, message, rfl⟩)
      · next hnot => exact Or.inr (Or.inr ⟨fun h => hnot h.1, _, rfl⟩)

/-- Induction on the dictionary. -/
theorem validateRaw_cases (raw : RawSpecification) (model : String) :
    ValidationEnds (Trips S raw model) (validateRaw S raw model) := by
  induction raw generalizing model with
  | nil => exact Or.inl ⟨fun h => (nomatch h), rfl⟩
  | noItems => exact Or.inr (Or.inl ⟨.noItems model, rfl⟩)
  | other key rest => exact Or.inr (Or.inr ⟨fun h => (nomatch h), _, rfl⟩)
  | atom name rest =>
    cases hfield : S.fields model name with
    | none =>
      refine Or.inr (Or.inr ⟨?_, _, by rw [validateRaw, hfield]; rfl⟩)
      rintro (_ | ⟨hsome⟩)
      rw [hfield] at hsome
      cases hsome
    | some field => exact Or.inr (Or.inl ⟨.atom hfield, by rw [validateRaw, hfield]⟩)
  | field name nested rest ihNested ihRest =>
    rw [validateRaw_field, trips_field_iff]
    rcases validationEnds_single name ihNested model with
      ⟨hno, hok⟩ | ⟨h, herror⟩ | ⟨hno, message, herror⟩
    · rw [hok, or_iff_right hno, and_iff_right (valid_of_validateRaw hok)]
      exact ihRest model
    · rw [herror]
      exact Or.inr (Or.inl ⟨Or.inl h, rfl⟩)
    · have hinvalid : ¬ Valid S (.field name nested .nil) model := by
        intro hvalid
        rw [validateRaw_of_valid hvalid] at herror
        cases herror
      rw [herror]
      exact Or.inr (Or.inr ⟨fun h => h.elim hno fun h => hinvalid h.1, message, rfl⟩)

theorem not_trips_of_validateRaw {raw : RawSpecification} {model : String}
    (h : validateRaw S raw model = .ok ()) : ¬ Trips S raw model := by
  rcases validateRaw_cases (S := S) raw model with ⟨hno, -⟩ | ⟨-, herror⟩ | ⟨hno, -⟩
  · exact hno
  · rw [h] at herror
    cases herror
  · exact hno

end

/-! ## What a query asks for -/

section

variable (H : Host) (S : Schema) (settings : Settings) (loads : String → Except String Json)
  (str : Json → String) (query : Kw)

/-- The specification a query stands for; a JSON text stands for the object it denotes. -/
inductive Denotes : Specification → Prop where
  | asIs {pairs : List (Json × Json)} {s : Specification}
      (hpairs : specificationFromQuery str query = .ok pairs)
      (hs : RawSpecification.ofPairs str (popOptions pairs) = .ofSpecification s) : Denotes s
  | text {text : String} {items : Kw} {s : Specification}
      (htext : query.get "specification" = .str text) (hnonempty : text ≠ "")
      (hloads : loads text = .ok (.obj items))
      (hs : RawSpecification.ofPairs str (popOptions (items.map fun f => (.str f.1, f.2))) =
        .ofSpecification s) : Denotes s

/-- A `ValidationError` or a `RestAuthError`. -/
def Refusal (e : Failure) : Prop :=
  (∃ message, e = validationError message) ∨
    ∃ code description status headers, e = .raised (.restAuthError code description status headers)

/-- Whatever there is to read, the query is answered with its specification serialized, or
refused. -/
def ServedOrRefused (model : String) : Prop :=
  ∀ (d : Reading S) (ids : List Nat),
    (∃ s, Denotes loads str query s ∧
      (serializeQuery str H S settings query model ids).run d =
        (serialize H S settings (optionsOf str query) s model ids).run d) ∨
    ∃ e, Refusal e ∧ (serializeQuery str H S settings query model ids).run d = .error e

/-- The specification is empty, or makes a dictionary in which validation does not trip. -/
def Servable (model : String) : Prop :=
  (query.get "specification").truthy = false ∨
    ∃ pairs, Json.dict (query.get "specification") = .ok pairs ∧
      ¬ Trips S (.ofPairs str (popOptions pairs)) model

end

/-- The values of a reading fit their fields, and it fails with errors of the ORM only. -/
structure Regular {S : Schema} (d : Reading S) : Prop where
  typed : WellTyped d
  read : ∀ model id field type, d.read model id field ≠ .error (.raised (.python type))
  displayName : ∀ model id type, d.displayName model id ≠ .error (.raised (.python type))

section

variable {H : Host} {S : Schema} {settings : Settings} {loads : String → Except String Json}
  {str : Json → String} {query : Kw} {model : String}

theorem shaped_toItems (t : Trie String) : Shaped (toItems t) := by
  induction t with
  | nil => exact .nil
  | node key children rest ihChildren ihRest =>
    rw [toItems_node]
    refine .cons ?_ ihRest
    cases children with
    | nil => exact .plain rfl
    | node => exact .fields rfl ihChildren

theorem Shaped.filter {items : List (String × Json)} (h : Shaped items)
    (p : String × Json → Bool) : Shaped (items.filter p) := by
  induction items with
  | nil => exact .nil
  | cons item items ih =>
    cases h with
    | cons hnode hrest =>
      rw [List.filter_cons]
      split
      · exact .cons hnode (ih hrest)
      · exact ih hrest

theorem popOptions_map (items : Kw) :
    popOptions (items.map fun f => (.str f.1, f.2)) =
      (items.filter fun f => f.1 != optionsKey).map fun f => (.str f.1, f.2) := by
  rw [popOptions, List.filter_map]
  rfl

/-- The shorthand builds a specification. -/
theorem exists_ofPairs_shorthand (str : Json → String)
    (hempty : (query.get "specification").truthy = false) :
    ∃ pairs s, specificationFromQuery str query = .ok pairs ∧
      RawSpecification.ofPairs str (popOptions pairs) = .ofSpecification s := by
  obtain ⟨items, hshaped, hquery⟩ : ∃ items : Kw, Shaped items ∧
      specificationFromQuery str query = .ok (items.map fun f => (.str f.1, f.2)) := by
    rw [specificationFromQuery, hempty, if_neg Bool.false_ne_true]
    split
    · rw [shorthand_eq]
      exact ⟨_, shaped_toItems _, rfl⟩
    · exact ⟨[], .nil, rfl⟩
  refine ⟨_, specificationOf (items.filter fun f => f.1 != optionsKey), hquery, ?_⟩
  rw [popOptions_map, RawSpecification.ofPairs_eq_ofItems]
  exact ofItems_eq_of_shaped (hshaped.filter _)

theorem serializeQuery_eq {pairs : List (Json × Json)}
    (h : specificationFromQuery str query = .ok pairs) (ids : List Nat) :
    serializeQuery str H S settings query model ids =
      serializeRaw H S settings (optionsOf str query) (.ofPairs str (popOptions pairs)) model ids := by
  rw [serializeQuery, h]
  rfl

theorem specificationFromQuery_of_truthy (h : (query.get "specification").truthy = true) :
    specificationFromQuery str query =
      (Json.dict (query.get "specification")).mapError .python := by
  rw [specificationFromQuery, if_pos h]

/-- A servable query is served, or refused. -/
theorem servedOrRefused_of_servable (H : Host) (settings : Settings)
    (loads : String → Except String Json) (h : Servable S str query model) :
    ServedOrRefused H S settings loads str query model := by
  intro d ids
  cases hempty : (query.get "specification").truthy with
  | false =>
    obtain ⟨pairs, s, hpairs, hs⟩ := exists_ofPairs_shorthand str hempty
    refine Or.inl ⟨s, .asIs hpairs hs, ?_⟩
    rw [serializeQuery_eq hpairs, hs, serializeRaw_ofSpecification]
  | true =>
    rcases h with hfalse | ⟨pairs, hdict, htrips⟩
    · rw [hempty] at hfalse
      cases hfalse
    · have hpairs : specificationFromQuery str query = .ok pairs := by
        rw [specificationFromQuery_of_truthy hempty, hdict]
        rfl
      rw [serializeQuery_eq hpairs]
      rcases validateRaw_cases (S := S) (.ofPairs str (popOptions pairs)) model with
        ⟨-, hok⟩ | ⟨h, -⟩ | ⟨-, message, herror⟩
      · have hs := eq_ofSpecification_of_validate hok
        refine Or.inl ⟨_, .asIs hpairs hs, ?_⟩
        rw [serializeRaw_eq_serialize hok]
      · exact absurd h htrips
      · refine Or.inr ⟨validationError message, Or.inl ⟨message, rfl⟩, ?_⟩
        rw [serializeRaw, herror]
        rfl

/-- With no records to read, a specification is empty or has a fault. -/
theorem run_serialize_nil (H : Host) (settings : Settings) (options : Options) (s : Specification)
    (model : String) (d : Reading S) :
    (serialize H S settings options s model []).run d = .ok [] ∨
      ∃ message, (serialize H S settings options s model []).run d =
        .error (validationError message) := by
  rw [serialize, serializeRecords]
  rcases validate_cases (S := S) s model with ⟨-, hok⟩ | ⟨-, message, herror⟩
  · rw [hok]
    exact Or.inl rfl
  · rw [herror]
    exact Or.inr ⟨message, rfl⟩

/-- An error of Python is neither an answer nor a refusal. -/
theorem not_servedOrRefused_of_python {type : String}
    (h : ∀ d : Reading S, (serializeQuery str H S settings query model []).run d =
      .error (.raised (.python type))) :
    ¬ ServedOrRefused H S settings loads str query model := by
  intro hserved
  rcases hserved (probe S) [] with ⟨s, -, hrun⟩ | ⟨e, hrefusal, hrun⟩
  · rw [h] at hrun
    rcases run_serialize_nil H settings (optionsOf str query) s model (probe S) with hok | ⟨message, herror⟩
    · rw [hok] at hrun
      cases hrun
    · rw [herror] at hrun
      cases hrun
  · rw [h] at hrun
    cases hrun
    rcases hrefusal with ⟨message, he⟩ | ⟨_, _, _, _, he⟩ <;> cases he

theorem exists_python_of_not_servable (H : Host) (settings : Settings)
    (h : ¬ Servable S str query model) :
    ∃ type, ∀ d : Reading S, (serializeQuery str H S settings query model []).run d =
      .error (.raised (.python type)) := by
  rw [Servable, not_or, not_exists] at h
  obtain ⟨htruthy, hpairs⟩ := h
  rw [Bool.not_eq_false] at htruthy
  cases hdict : Json.dict (query.get "specification") with
  | error type =>
    refine ⟨type, fun d => ?_⟩
    rw [serializeQuery, specificationFromQuery_of_truthy htruthy, hdict]
    rfl
  | ok pairs =>
    refine ⟨"AttributeError", fun d => ?_⟩
    have hquery : specificationFromQuery str query = .ok pairs := by
      rw [specificationFromQuery_of_truthy htruthy, hdict]
      rfl
    have htrips : Trips S (.ofPairs str (popOptions pairs)) model :=
      not_not.mp fun hno => hpairs pairs ⟨hdict, hno⟩
    rw [serializeQuery_eq hquery, serializeRaw]
    rcases validateRaw_cases (S := S) (.ofPairs str (popOptions pairs)) model with
      ⟨hno, -⟩ | ⟨-, herror⟩ | ⟨hno, -⟩
    · exact absurd htrips hno
    · rw [herror]
      rfl
    · exact absurd htrips hno

/-- Serializing a specification raises no error of Python. -/
theorem avoids_python_serialize {d : Reading S} (hd : Regular d) (options : Options)
    (s : Specification) (ids : List Nat) :
    Avoids d (fun e => ∃ type, e = .raised (.python type))
      (serialize H S settings options s model ids) := by
  have hspared : Spared d fun e => ∃ type, e = .raised (.python type) := by
    refine ⟨?_, ?_, fun _ _ => hd.typed⟩
    · rintro m id field e he ⟨type, rfl⟩
      exact hd.read m id field type he
    · rintro m id e he ⟨type, rfl⟩
      exact hd.displayName m id type he
  rcases validate_cases (S := S) s model with ⟨hno, hok⟩ | ⟨-, message, herror⟩
  · rw [serialize_eq_mapM hok]
    exact avoids_mapM (fun id => avoids_recordUnchecked hspared hok id) ids
  · rw [serialize, serializeRecords, herror]
    rintro e he ⟨type, rfl⟩
    cases he

end

/-- **Specification options.**  A query is served with the specification it stands for, or refused,
exactly when its `specification` is empty or makes a dictionary in which validation does not trip;
then no error of Python escapes from a regular reading. -/
theorem servedOrRefused_iff (H : Host) (S : Schema) (settings : Settings)
    (loads : String → Except String Json) (str : Json → String) (query : Kw) (model : String) :
    (ServedOrRefused H S settings loads str query model ↔ Servable S str query model) ∧
      (Servable S str query model → ∀ (d : Reading S) (ids : List Nat), Regular d → ∀ type,
        (serializeQuery str H S settings query model ids).run d ≠ .error (.raised (.python type))) := by
  refine ⟨⟨fun h => ?_, servedOrRefused_of_servable H settings loads⟩, fun h d ids hd type he => ?_⟩
  · by_contra hno
    obtain ⟨type, hpython⟩ := exists_python_of_not_servable H settings hno
    exact not_servedOrRefused_of_python hpython h
  · rcases servedOrRefused_of_servable H settings loads h d ids with
      ⟨s, -, hrun⟩ | ⟨e, hrefusal, hrun⟩
    · exact avoids_python_serialize hd (optionsOf str query) s ids _ (hrun.symm.trans he) ⟨type, rfl⟩
    · rw [hrun] at he
      cases he
      rcases hrefusal with ⟨message, he⟩ | ⟨_, _, _, _, he⟩ <;> cases he

/-! ## An order -/

theorem regular_orderIn (currency : Nat) : Regular (orderIn false currency) := by
  refine ⟨?_, ?_, fun _ _ _ h => nomatch h⟩
  · intro model id name field value hfield hread
    unfold orderIn at hread
    unfold orderSchema orderFields at hfield
    dsimp only at hread hfield
    split_ifs at hread hfield <;> cases hread <;> cases hfield
    all_goals first | exact ⟨_, rfl⟩ | exact ⟨_, rfl, .int _⟩ | simp_all
  · intro model id name type h
    unfold orderIn at h
    dsimp only at h
    split_ifs at h

/-- The lines of an order with their totals. -/
def linesQuery : Kw :=
  [("specification", .obj [("line_ids", .obj [("fields", .obj [("amount_total", .null)])])])]

theorem servedOrRefused_lines :
    ServedOrRefused orderHost (orderSchema false) orderSettings (fun _ => .error "") (fun _ => "")
        linesQuery "sale.order" ∧
      ∀ type, (serializeQuery (fun _ => "") orderHost (orderSchema false) orderSettings linesQuery
        "sale.order" [1]).run (orderIn false 2) ≠ .error (.raised (.python type)) := by
  have hservable : Servable (orderSchema false) (fun _ => "") linesQuery "sale.order" := by
    refine Or.inr ⟨_, rfl, not_trips_of_validateRaw ?_⟩
    rfl
  have hiff := servedOrRefused_iff orderHost (orderSchema false) orderSettings (fun _ => .error "")
    (fun _ => "") linesQuery "sale.order"
  exact ⟨hiff.1.mpr hservable, hiff.2 hservable _ [1] (regular_orderIn 2)⟩

/-- A JSON text is a `ValueError`, a node that is a number an `AttributeError`. -/
theorem not_servedOrRefused_text :
    let text : Kw := [("specification", .str "\x7b\"amount_total\": \x7b\x7d\x7d")]
    let number : Kw := [("specification", .obj [("amount_total", .int 5)])]
    let loads : String → Except String Json := fun _ => .ok (.obj [("amount_total", .obj [])])
    (¬ ServedOrRefused orderHost (orderSchema false) orderSettings loads (fun _ => "") text
        "sale.order") ∧
      ¬ ServedOrRefused orderHost (orderSchema false) orderSettings loads (fun _ => "") number
        "sale.order" := by
  intro text number loads
  constructor
  · have hvalue : ∀ d, (serializeQuery (fun _ => "") orderHost (orderSchema false) orderSettings text
        "sale.order" []).run d = .error (.raised (.python "ValueError")) := by
      intro d
      have hdict : Json.dict (Kw.get text "specification") = .error "ValueError" :=
        Json.dict_str (by decide)
      rw [serializeQuery, specificationFromQuery_of_truthy (by decide), hdict]
      rfl
    exact not_servedOrRefused_of_python hvalue
  · have hattribute : ∀ d, (serializeQuery (fun _ => "") orderHost (orderSchema false) orderSettings
        number "sale.order" []).run d = .error (.raised (.python "AttributeError")) := fun d => rfl
    exact not_servedOrRefused_of_python hattribute

end SsiRest.Serializer
