import SsiRestApi.Serializer.Typing

/-!
# Validation ahead of reading

`_serialize` walks the specification over the models of the relations before it reads a
record, and again at every recordset it comes to.

    a `ValidationError` ↔ a node that `fields` leads to names no field of its model, or
      nests under a field that is no relation; else the specification is never faulted
      again, and each record has its dictionary                    (validation_complete)
-/

namespace SsiRest.Serializer

open Py Observe

/-! ## Faults -/

/-- The fields a specification names, with what it nests under them. -/
def Specification.entries : Specification → List (String × Specification)
  | nil => []
  | field name nested rest => (name, nested) :: rest.entries

/-- From a specification on a model, `fields` leads to others on the models of the relations. -/
inductive Reaches (S : Schema) : Specification → String → Specification → String → Prop where
  | here (s : Specification) (model : String) : Reaches S s model s model
  | into {s nested s' : Specification} {model name model' : String} {field : Field}
      (hentry : (name, nested) ∈ s.entries) (hfield : S.fields model name = some field)
      (hrelational : field.type.relational = true)
      (h : Reaches S nested field.comodel s' model') : Reaches S s model s' model'

/-- An unknown field, or a nested specification under a field that is no relation. -/
def FaultyEntry (S : Schema) (model : String) (entry : String × Specification) : Prop :=
  S.fields model entry.1 = none ∨
    ∃ field, S.fields model entry.1 = some field ∧ field.type.relational = false ∧
      entry.2.isEmpty = false

def Faulty (S : Schema) (s : Specification) (model : String) : Prop :=
  ∃ s' model', Reaches S s model s' model' ∧ ∃ entry ∈ s'.entries, FaultyEntry S model' entry

section

variable {S : Schema}

/-- A fault is here or below. -/
theorem faulty_iff {s : Specification} {model : String} :
    Faulty S s model ↔ ∃ entry ∈ s.entries, FaultyEntry S model entry ∨
      ∃ field, S.fields model entry.1 = some field ∧ field.type.relational = true ∧
        Faulty S entry.2 field.comodel := by
  constructor
  · rintro ⟨s', model', hreaches, entry, hentry, hfault⟩
    cases hreaches with
    | here => exact ⟨entry, hentry, Or.inl hfault⟩
    | into hmem hfield hrelational h =>
      exact ⟨_, hmem, Or.inr ⟨_, hfield, hrelational, s', model', h, entry, hentry, hfault⟩⟩
  · rintro ⟨entry, hentry, hfault | ⟨field, hfield, hrelational, s', model', h, hfault⟩⟩
    · exact ⟨s, model, .here s model, entry, hentry, hfault⟩
    · exact ⟨s', model', .into hentry hfield hrelational h, hfault⟩

theorem not_faulty_nil (model : String) : ¬ Faulty S .nil model := by
  rw [faulty_iff]
  rintro ⟨entry, hentry, -⟩
  cases hentry

theorem faulty_field {name model : String} {nested rest : Specification} :
    Faulty S (.field name nested rest) model ↔
      (FaultyEntry S model (name, nested) ∨ ∃ field, S.fields model name = some field ∧
        field.type.relational = true ∧ Faulty S nested field.comodel) ∨ Faulty S rest model := by
  rw [faulty_iff, faulty_iff (s := rest), Specification.entries]
  simp only [List.mem_cons, or_and_right, exists_or, exists_eq_left]

/-- Neither unknown nor nested under what is no relation, the field itself is no fault. -/
theorem faulty_field_of_known {name model : String} {nested rest : Specification} {field : Field}
    (hfield : S.fields model name = some field)
    (hok : nested.isEmpty = true ∨ field.type.relational = true)
    (hnested : ¬ Faulty S nested field.comodel) :
    Faulty S (.field name nested rest) model ↔ Faulty S rest model := by
  have hentry : ¬ FaultyEntry S model (name, nested) := by
    rintro (hnone | ⟨field', hsome, hnot, hne⟩)
    · rw [hfield] at hnone
      cases hnone
    · rw [hfield] at hsome
      cases hsome
      rcases hok with hempty | hrelational
      · rw [hempty] at hne
        cases hne
      · rw [hrelational] at hnot
        cases hnot
  have hwithin : ¬ ∃ field, S.fields model name = some field ∧ field.type.relational = true ∧
      Faulty S nested field.comodel := by
    rintro ⟨field', hsome, -, hfault⟩
    rw [hfield] at hsome
    cases hsome
    exact hnested hfault
  rw [faulty_field, or_iff_right (not_or_intro hentry hwithin)]

/-- Induction on the specification: validation finds the first fault, if there is one. -/
theorem validate_cases (s : Specification) (model : String) :
    (¬ Faulty S s model ∧ validateSpecification S s model = .ok ()) ∨
      (Faulty S s model ∧ ∃ message,
        validateSpecification S s model = .error (validationError message)) := by
  induction s generalizing model with
  | nil => exact Or.inl ⟨not_faulty_nil model, rfl⟩
  | field name nested rest ihNested ihRest =>
    rw [validateSpecification]
    cases hfield : S.fields model name with
    | none => exact Or.inr ⟨faulty_field.mpr (Or.inl (Or.inl (Or.inl hfield))), _, rfl⟩
    | some field =>
      dsimp only
      split
      · next hempty =>
        have hnested : ¬ Faulty S nested field.comodel := by
          cases nested with
          | nil => exact not_faulty_nil _
          | field => cases hempty
        rw [faulty_field_of_known hfield (Or.inl hempty) hnested]
        exact ihRest model
      · next hne =>
        split
        · next hrelational =>
          rcases ihNested field.comodel with ⟨hnested, hok⟩ | ⟨hnested, message, herror⟩
          · rw [hok, faulty_field_of_known hfield (Or.inr hrelational) hnested]
            exact ihRest model
          · rw [herror]
            refine Or.inr ⟨faulty_field.mpr ?_, message, rfl⟩
            exact Or.inl (Or.inr ⟨field, hfield, hrelational, hnested⟩)
        · next hnot =>
          have hentry : FaultyEntry S model (name, nested) :=
            Or.inr ⟨field, hfield, by simpa using hnot, by simpa using hne⟩
          exact Or.inr ⟨faulty_field.mpr (Or.inl (Or.inl hentry)), _, rfl⟩

theorem validate_ok_iff {s : Specification} {model : String} :
    validateSpecification S s model = .ok () ↔ ¬ Faulty S s model := by
  rcases validate_cases (S := S) s model with ⟨hfault, hok⟩ | ⟨hfault, message, herror⟩
  · exact iff_of_true hok hfault
  · refine iff_of_false (fun hok => ?_) (not_not_intro hfault)
    rw [herror] at hok
    cases hok

end

/-! ## Objects -/

mutual

/-- A dictionary whose nodes are null or objects with an optional `fields` object. -/
inductive Shaped : List (String × Json) → Prop where
  | nil : Shaped []
  | cons {name : String} {node : Json} {rest : List (String × Json)} (hnode : ShapedNode node)
      (hrest : Shaped rest) : Shaped ((name, node) :: rest)

inductive ShapedNode : Json → Prop where
  | null : ShapedNode .null
  | plain {entries : List (String × Json)} (h : entries.lookup "fields" = none) :
      ShapedNode (.obj entries)
  | fields {entries items : List (String × Json)} (h : entries.lookup "fields" = some (.obj items))
      (hitems : Shaped items) : ShapedNode (.obj entries)

end

namespace RawSpecification

theorem ofEntries_eq (entries : List (String × Json)) :
    ofEntries entries = ((entries.lookup "fields").map ofNested).getD nil := by
  induction entries with
  | nil => rw [ofEntries]; rfl
  | cons entry entries ih =>
    obtain ⟨key, nested⟩ := entry
    rw [ofEntries, ih]
    by_cases hkey : key = "fields"
    · subst hkey
      simp
    · rw [if_neg hkey, List.lookup_cons, beq_false_of_ne (Ne.symm hkey)]

end RawSpecification

/-- The specification an object stands for. -/
def specificationOf (items : List (String × Json)) : Specification :=
  (RawSpecification.ofItems items).toSpecification

open RawSpecification in
/-- Induction on the shape: such a dictionary is a specification, and a node of it that of a
field. -/
theorem ofItems_of_shaped {items : List (String × Json)} (h : Shaped items) :
    ∃ s, ofItems items = ofSpecification s := by
  induction h using Shaped.rec
    (motive_2 := fun node _ => ∃ nested, ∀ name rest,
      ofNode name node rest = .field name (ofSpecification nested) rest) with
  | nil => exact ⟨.nil, by rw [ofItems]; rfl⟩
  | cons hnode hrest ihNode ihRest =>
    obtain ⟨nested, hnested⟩ := ihNode
    obtain ⟨rest, hrest⟩ := ihRest
    exact ⟨.field _ nested rest, by rw [ofItems, hnested, hrest, ofSpecification]⟩
  | null =>
    refine ⟨.nil, fun name rest => ?_⟩
    rw [ofNode]
    · rfl
    · intro entries h
      cases h
  | plain hfields =>
    refine ⟨.nil, fun name rest => ?_⟩
    rw [ofNode, ofEntries_eq, hfields]
    rfl
  | fields hfields hitems ih =>
    obtain ⟨nested, hnested⟩ := ih
    refine ⟨nested, fun name rest => ?_⟩
    rw [ofNode, ofEntries_eq, hfields, Option.map_some, Option.getD_some, ofNested, hnested]

theorem ofItems_eq_of_shaped {items : List (String × Json)} (h : Shaped items) :
    RawSpecification.ofItems items = .ofSpecification (specificationOf items) := by
  obtain ⟨s, hs⟩ := ofItems_of_shaped h
  rw [specificationOf, hs, RawSpecification.toSpecification_ofSpecification]

/-! ## Complete validation -/

/-- Reading a value raises no `ValidationError`. -/
structure ReadsWithoutValidation {S : Schema} (d : Reading S) : Prop where
  read : ∀ model id field message, d.read model id field ≠ .error (validationError message)
  displayName : ∀ model id message, d.displayName model id ≠ .error (validationError message)

variable (H : Host) (S : Schema) (settings : Settings) (options : Options)

/-- **Validation.**  Serializing an object raises a `ValidationError`, whatever there is to read,
exactly when there is a fault; without one the validation of related records never raises, and
every record has its dictionary, in order, at every level. -/
theorem validation_complete {items : List (String × Json)} (hshaped : Shaped items) (model : String)
    (ids : List Nat) :
    (Faulty S (specificationOf items) model → ∃ message, ∀ d : Reading S,
      (serializeRaw H S settings options (.ofItems items) model ids).run d =
        .error (validationError message)) ∧
    (∀ d : Reading S, ReadsWithoutValidation d →
      ((∃ message, (serializeRaw H S settings options (.ofItems items) model ids).run d =
        .error (validationError message)) ↔ Faulty S (specificationOf items) model)) ∧
    (¬ Faulty S (specificationOf items) model →
      serializeRaw H S settings options (.ofItems items) model ids =
        ids.mapM (recordUnchecked H S settings options (specificationOf items) model) ∧
      ∀ (d : Reading S) rows,
        (serializeRaw H S settings options (.ofItems items) model ids).run d = .ok rows →
          List.Forall₂ (RowOf options d (specificationOf items) model) ids rows) := by
  have hserialize : serializeRaw H S settings options (.ofItems items) model ids =
      serialize H S settings options (specificationOf items) model ids := by
    rw [ofItems_eq_of_shaped hshaped, serializeRaw_ofSpecification]
  rw [hserialize]
  have hfaulty : Faulty S (specificationOf items) model → ∃ message, ∀ d : Reading S,
      (serialize H S settings options (specificationOf items) model ids).run d =
        .error (validationError message) := by
    intro hfault
    rcases validate_cases (S := S) (specificationOf items) model with ⟨hno, -⟩ | ⟨-, message, herror⟩
    · exact absurd hfault hno
    · refine ⟨message, fun d => ?_⟩
      rw [serialize, serializeRecords, herror]
      rfl
  refine ⟨hfaulty, fun d hreads => ⟨?_, fun hfault => ?_⟩, fun hno => ?_⟩
  · rintro ⟨message, hraised⟩
    by_contra hno
    have hspared : Spared d fun e => ∃ message, e = validationError message := by
      constructor
      · rintro model id field e he ⟨message, rfl⟩
        exact hreads.read model id field message he
      · rintro model id e he ⟨message, rfl⟩
        exact hreads.displayName model id message he
      · rintro type ⟨message, hpython⟩
        cases hpython
    have hvalid := validate_ok_iff.mpr hno
    rw [serialize_eq_mapM hvalid] at hraised
    exact avoids_mapM (fun id => avoids_recordUnchecked hspared hvalid id) ids _ hraised ⟨_, rfl⟩
  · obtain ⟨message, hmessage⟩ := hfaulty hfault
    exact ⟨message, hmessage d⟩
  · have heq : serialize H S settings options (specificationOf items) model ids =
        ids.mapM (recordUnchecked H S settings options (specificationOf items) model) :=
      serialize_eq_mapM (validate_ok_iff.mpr hno) ids
    refine ⟨heq, fun d rows hrows => ?_⟩
    rw [heq] at hrows
    exact (forall₂_of_mapM hrows).imp fun id row hrow => rowOf_recordUnchecked hrow

/-- An order with its lines is never faulted, and gets a dictionary for the order. -/
theorem validation_complete_order :
    let items : List (String × Json) := [("line_ids", .obj [("fields", .obj [("amount_total", .null)])])]
    Shaped items ∧ ReadsWithoutValidation (orderIn false 2) ∧
      (¬ ∃ message, (serializeRaw orderHost (orderSchema false) orderSettings {} (.ofItems items)
        "sale.order" [1]).run (orderIn false 2) = .error (validationError message)) ∧
      List.Forall₂ (RowOf {} (orderIn false 2) (specificationOf items) "sale.order") [1]
        [[("line_ids", .records [])]] := by
  intro items
  have hshaped : Shaped items := .cons (.fields rfl (.cons .null .nil)) .nil
  have hreads : ReadsWithoutValidation (orderIn false 2) := by
    constructor
    · intro model id field message h
      unfold orderIn at h
      dsimp only at h
      split_ifs at h
    · intro model id message h
      cases h
  have hvalid : ¬ Faulty (orderSchema false) (specificationOf items) "sale.order" :=
    validate_ok_iff.mp rfl
  obtain ⟨-, hiff, hrows⟩ := validation_complete orderHost (orderSchema false) orderSettings {}
    hshaped "sale.order" [1]
  exact ⟨hshaped, hreads, fun h => hvalid ((hiff _ hreads).mp h), (hrows hvalid).2 _ _ rfl⟩

end SsiRest.Serializer
