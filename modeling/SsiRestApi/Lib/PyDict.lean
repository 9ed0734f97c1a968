import SsiRestApi.Lib.Json

/-!
# Python dictionaries

Assignment, `dict(v)`, `==` and the merging of nested dictionaries, over values of JSON.

    an assignment shows under its key only                          (Kw.lookup_set)
-/

namespace Py

/-! ## Equality -/

namespace Json

/-- The number that a value equals. -/
def number : Json → Option ℚ
  | bool b => some (if b then 1 else 0)
  | int i => some i
  | float (.fin q _) => some q
  | _ => none

def numberEq : Json → Json → Bool
  | float (.inf a), float (.inf b) => a == b
  | v, w =>
    match v.number, w.number with
    | some q, some r => q == r
    | _, _ => false

mutual

/-- `v == w`. -/
def eq : Json → Json → Bool
  | null, null => true
  | str s, str t => s == t
  | arr items, arr items' => eqItems items items'
  | obj fields, obj fields' => fields.length == fields'.length && eqFields fields fields'
  | v, w => numberEq v w

def eqItems : List Json → List Json → Bool
  | [], [] => true
  | v :: items, w :: items' => eq v w && eqItems items items'
  | _, _ => false

/-- Every field of the first is a field of the second, with an equal value. -/
def eqFields : List (String × Json) → List (String × Json) → Bool
  | [], _ => true
  | (key, v) :: fields, fields' =>
    (match fields'.lookup key with
      | some w => eq v w
      | none => false) && eqFields fields fields'

end

end Json

/-! ## Assignment -/

/-- `kw[key] = v`. -/
def Kw.set (kw : Kw) (key : String) (v : Json) : Kw :=
  match kw with
  | [] => [(key, v)]
  | field :: kw => if field.1 = key then (field.1, v) :: kw else field :: Kw.set kw key v

theorem Kw.lookup_set (kw : Kw) (key key' : String) (v : Json) :
    (kw.set key v).lookup key' = if key = key' then some v else kw.lookup key' := by
  induction kw with
  | nil =>
    by_cases h : key = key'
    · subst h
      simp [Kw.set]
    · simp [Kw.set, h, List.lookup_cons, beq_false_of_ne (Ne.symm h)]
  | cons field kw ih =>
    obtain ⟨k, w⟩ := field
    rw [Kw.set]
    by_cases hk : k = key
    · subst hk
      by_cases h : k = key'
      · subst h
        simp
      · simp [h, List.lookup_cons, beq_false_of_ne (Ne.symm h)]
    · rw [if_neg hk, List.lookup_cons, List.lookup_cons, ih]
      by_cases h : key' = k
      · subst h
        simp [Ne.symm hk]
      · rw [beq_false_of_ne h]

/-! ## Merging -/

mutual

/-- Merge a value over another: dictionaries field by field. -/
def Json.mergeOver : Json → Json → Json
  | .obj new, .obj old => .obj (mergeFields new old)
  | v, _ => v

/-- For each field: `old[key]` is what the new value makes of `old.setdefault(key, {})`. -/
def mergeFields : List (String × Json) → Kw → Kw
  | [], old => old
  | (key, v) :: new, old =>
    mergeFields new (Kw.set old key (Json.mergeOver v ((old.lookup key).getD (.obj []))))

end

/-! ## dict(v) -/

namespace Json

def hashable : Json → Bool
  | arr _ | obj _ => false
  | _ => true

/-- `iter(v)` of what is no dictionary; the error is the class of the exception. -/
def iter : Json → Except String (List Json)
  | arr items => .ok items
  | str s => .ok (s.toList.map fun c => .str (String.ofList [c]))
  | _ => .error "TypeError"

/-- An element of a sequence that `dict` takes for a pair. -/
def pair : Json → Except String (Json × Json)
  | arr [key, v] => .ok (key, v)
  | obj [f, g] => .ok (.str f.1, .str g.1)
  | str s =>
    match s.toList with
    | [a, b] => .ok (.str (String.ofList [a]), .str (String.ofList [b]))
    | _ => .error "ValueError"
  | arr _ | obj _ => .error "ValueError"
  | _ => .error "TypeError"

/-- `d[key] = v` for any keys. -/
def setKey (d : List (Json × Json)) (key v : Json) : List (Json × Json) :=
  match d with
  | [] => [(key, v)]
  | item :: d => if item.1.eq key then (item.1, v) :: d else item :: setKey d key v

/-- The items of `dict(v)`. -/
def dict : Json → Except String (List (Json × Json))
  | obj fields => .ok (fields.map fun f => (.str f.1, f.2))
  | v => do
    let items ← iter v
    items.foldlM (fun d item => do
      let (key, v) ← pair item
      if key.hashable then .ok (setKey d key v) else .error "TypeError") []

/-- Text is no sequence of pairs. -/
theorem dict_str {s : String} (h : s ≠ "") : dict (.str s) = .error "ValueError" := by
  cases hs : s.toList with
  | nil => exact absurd (String.toList_inj.mp (by rw [hs]; rfl)) h
  | cons c cs =>
    rw [dict, iter, hs, List.map_cons]
    · simp only [bind, Except.bind, List.foldlM_cons, pair, String.toList_ofList]
    · exact fun fields h => nomatch h

end Json

end Py
