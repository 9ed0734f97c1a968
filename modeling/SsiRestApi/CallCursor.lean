import Mathlib.Data.List.Basic
import SsiRestApi.MethodCall

/-!
# The cursor of a method call

`orm_call_readonly` goes through the classes of a model and takes the mark that `@api.readonly`
has left on the method as the first of them has it, inherited or not.

    read-only ↔ the model is unknown, or one of its classes has the method marked
                                                                  (ormCallReadonly_iff)
-/

namespace SsiRest.MethodCall

/-- Python classes: the resolution order of each, and what its body defines under a name. -/
structure ClassTable (C α : Type) where
  mro : C → List C
  own : C → String → Option α
  self_mem : ∀ c, ∃ parents, mro c = c :: parents
  inherited : ∀ c, ∀ d ∈ mro c, ∀ e ∈ mro d, e ∈ mro c

namespace ClassTable

variable {C α : Type} (T : ClassTable C α) {c : C} {name : String} {a : α}

/-- `getattr(c, name, None)`. -/
def getattr (c : C) (name : String) : Option α := (T.mro c).findSome? fun d => T.own d name

variable {T}

theorem getattr_of_own (h : T.own c name = some a) : T.getattr c name = some a := by
  obtain ⟨parents, hmro⟩ := T.self_mem c
  unfold getattr
  rw [hmro, List.findSome?_cons, h]

/-- What a class has, one of its ancestors or it itself defines. -/
theorem own_of_getattr (h : T.getattr c name = some a) :
    ∃ d ∈ T.mro c, T.own d name = some a := List.exists_of_findSome?_eq_some h

end ClassTable

/-- An attribute of a class: `_readonly`, if it has that. -/
structure Attribute where
  isReadonly : Option Bool

variable {C : Type} (T : ClassTable C Attribute) (registry : String → Option C)

/-- The first mark on the method of one of the classes. -/
def readonlyMark (classes : List C) (method : String) : Option Bool :=
  classes.findSome? fun cls => (T.getattr cls method).bind (·.isReadonly)

/-- `orm_call_readonly`. -/
def ormCallReadonly (model method : String) : Bool :=
  match registry model with
  | none => true
  | some cls => (readonlyMark T (T.mro cls) method).getD false

variable {T registry}

/-- A mark found is one that some class of the model has made. -/
theorem own_of_readonlyMark {cls : C} {method : String} {b : Bool}
    (h : readonlyMark T (T.mro cls) method = some b) :
    ∃ d ∈ T.mro cls, ∃ a, T.own d method = some a ∧ a.isReadonly = some b := by
  obtain ⟨c, hc, hmark⟩ := List.exists_of_findSome?_eq_some h
  obtain ⟨a, ha, hb⟩ := Option.bind_eq_some_iff.mp hmark
  obtain ⟨d, hd, hown⟩ := ClassTable.own_of_getattr ha
  exact ⟨d, T.inherited cls c hc d hd, a, hown, hb⟩

/-- **Once read-only, always read-only.**  `@api.readonly` marks with `True`.  A call gets a
read-only cursor exactly if the model is unknown or some class of the model defines the method with
the mark: an override without it does not take it back. -/
theorem ormCallReadonly_iff (hmarks : ∀ c name a b, T.own c name = some a →
    a.isReadonly = some b → b = true) {model method : String} :
    ormCallReadonly T registry model method = true ↔ ∀ cls, registry model = some cls →
      ∃ d ∈ T.mro cls, ∃ a, T.own d method = some a ∧ a.isReadonly = some true := by
  unfold ormCallReadonly
  cases registry model with
  | none => simp
  | some cls =>
    dsimp only
    constructor
    · rintro h _ ⟨⟩
      cases hmark : readonlyMark T (T.mro cls) method with
      | none =>
        rw [hmark] at h
        cases h
      | some b =>
        rw [hmark] at h
        obtain rfl : b = true := h
        exact own_of_readonlyMark hmark
    · intro h
      obtain ⟨d, hd, a, hown, hmarked⟩ := h cls rfl
      cases hmark : readonlyMark T (T.mro cls) method with
      | none =>
        have hno := List.findSome?_eq_none_iff.mp hmark d hd
        rw [ClassTable.getattr_of_own hown, Option.bind_some, hmarked] at hno
        cases hno
      | some b =>
        obtain ⟨d', -, a', hown', hmarked'⟩ := own_of_readonlyMark hmark
        exact hmarks d' method a' b hown' hmarked'

/-! ## An override without the mark -/

/-- Class 0 overrides the `read` of class 1, which is marked. -/
def overridden : ClassTable (Fin 2) Attribute where
  mro c := if c = 0 then [0, 1] else [1]
  own c name := if name = "read" then some ⟨if c = 0 then none else some true⟩ else none
  self_mem
    | 0 => ⟨[1], rfl⟩
    | 1 => ⟨[], rfl⟩
  inherited := by decide

theorem ormCallReadonly_overridden :
    ormCallReadonly overridden (fun _ => some 0) "res.partner" "read" = true := by
  refine (ormCallReadonly_iff (fun c name a b ha hb => ?_)).mpr fun cls hcls => ?_
  · simp only [overridden] at ha
    split at ha
    · cases ha
      split at hb <;> cases hb
      rfl
    · cases ha
  · cases hcls
    exact ⟨1, by decide, ⟨some true⟩, rfl, rfl⟩

end SsiRest.MethodCall
