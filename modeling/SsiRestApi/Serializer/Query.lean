import SsiRestApi.Lib.PyDict
import SsiRestApi.Lib.Trie
import SsiRestApi.Serializer.Validation

/-!
# Specifications from query options

`_specification_from_query`: an explicit specification, or the one that the `fields`
shorthand stands for.  The global options are kept apart from the fields here, as
`_serialize` takes them out again.

    the shorthand builds the trie of its paths                      (shorthand_eq)
-/

namespace SsiRest.Serializer

open Py

/-! ## The shorthand -/

/-- `_merge_dotted_path`. -/
def mergeDottedPath : Kw → List String → Except Exn Kw
  | _, [] => .error (.python "ValueError")
  | specification, [head] =>
    .ok (specification.set head ((specification.lookup head).getD (.obj [])))
  | specification, head :: next :: rest =>
    match (specification.lookup head).getD (.obj []) with
    | .obj entry =>
      match (entry.lookup "fields").getD (.obj []) with
      | .obj nested => do
        let nested ← mergeDottedPath nested (next :: rest)
        .ok (specification.set head (.obj (Kw.set entry "fields" (.obj nested))))
      | _ => .error (.python "AttributeError")
    | _ => .error (.python "AttributeError")

/-- One path of the shorthand. -/
def mergePath (specification : Kw) (dottedPath : String) : Except Exn Kw :=
  let dottedPath := strip dottedPath
  if dottedPath = "" then .ok specification
  else mergeDottedPath specification (splitOn '.' dottedPath)

/-- The specification of `fields`. -/
def shorthand (fields : String) : Except Exn Kw := (splitOn ',' fields).foldlM mergePath []

/-! ## The query -/

def optionsKey : String := "__options__"

def trueStrings : List String := ["1", "true", "True"]

section

/- `str(v)` of what is no text. -/
variable (str : Json → String)

/-- `str(v)`. -/
def strOf : Json → String
  | .str s => s
  | v => str v

/-- The options `m2o`, `binary` and `labels`. -/
def optionsOf (query : Kw) : Options where
  m2o := query.get "m2o"
  binary := query.get "binary"
  labels := .bool (trueStrings.contains (strOf str (query.get "labels")))

/-- The fields that `_specification_from_query` asks for. -/
def specificationFromQuery (query : Kw) : Except Exn (List (Json × Json)) :=
  if (query.get "specification").truthy then
    (Json.dict (query.get "specification")).mapError .python
  else if (query.get "fields").truthy then
    (shorthand (strOf str (query.get "fields"))).map fun items => items.map fun f => (.str f.1, f.2)
  else .ok []

/-- The fields without the entry of the options. -/
def popOptions (specification : List (Json × Json)) : List (Json × Json) :=
  specification.filter fun item => !item.1.isStr optionsKey

variable (H : Host) (S : Schema) (settings : Settings)

/-- `_serialize(records, _specification_from_query(query))`. -/
def serializeQuery (query : Kw) (model : String) (ids : List Nat) : Reads S (List Row) := do
  let specification ← liftM ((specificationFromQuery str query).mapError Failure.raised)
  serializeRaw H S settings (optionsOf str query)
    (.ofPairs str (popOptions specification)) model ids

end

/-! ## Tries of fields -/

/-- The nested dictionaries of a trie: a leaf is `{}`. -/
def toItems : Trie String → Kw
  | .nil => []
  | .node name children rest =>
    (name, if children.isEmpty then .obj [] else .obj [("fields", .obj (toItems children))]) ::
      toItems rest

/-- The node over a dictionary. -/
def toNode (children : Trie String) : Json :=
  if children.isEmpty then .obj [] else .obj [("fields", .obj (toItems children))]

theorem toItems_node (name : String) (children rest : Trie String) :
    toItems (.node name children rest) = (name, toNode children) :: toItems rest := rfl

theorem lookup_toItems (t : Trie String) (name : String) :
    (toItems t).lookup name = (t.child name).map toNode := by
  induction t with
  | nil => rfl
  | node key children rest _ ih =>
    rw [toItems_node, List.lookup_cons, Trie.child]
    by_cases h : key = name
    · subst h
      simp
    · rw [beq_false_of_ne (Ne.symm h), if_neg h]
      exact ih

theorem getD_lookup_toItems (t : Trie String) (name : String) :
    ((toItems t).lookup name).getD (.obj []) = toNode ((t.child name).getD .nil) := by
  rw [lookup_toItems]
  cases t.child name with
  | none => rfl
  | some c => rfl

theorem set_toItems (t : Trie String) (name : String) (f : Trie String → Trie String) :
    (toItems t).set name (toNode (f ((t.child name).getD .nil))) = toItems (t.adjust name f) := by
  induction t with
  | nil => rfl
  | node key children rest _ ih =>
    rw [toItems_node, Kw.set, Trie.adjust, Trie.child]
    by_cases h : key = name
    · rw [if_pos h, if_pos h, if_pos h, toItems_node]
      rfl
    · rw [if_neg h, if_neg h, if_neg h, toItems_node, ih]

/-- Going down one step: the fields of a node, and the node with other fields. -/
theorem toNode_fields (children : Trie String) :
    ∃ entry, toNode children = .obj entry ∧
      (entry.lookup "fields").getD (.obj []) = .obj (toItems children) ∧
      ∀ v, Kw.set entry "fields" v = [("fields", v)] := by
  cases children with
  | nil => exact ⟨[], rfl, rfl, fun _ => rfl⟩
  | node => exact ⟨_, rfl, rfl, fun _ => rfl⟩

theorem toNode_of_not_isEmpty {t : Trie String} (h : t.isEmpty = false) :
    toNode t = .obj [("fields", .obj (toItems t))] := by
  rw [toNode, if_neg (by rw [h]; exact Bool.false_ne_true)]

/-- Induction on the path: merging it into the dictionaries of a trie inserts it. -/
theorem mergeDottedPath_toItems (t : Trie String) (head : String) (rest : List String) :
    mergeDottedPath (toItems t) (head :: rest) = .ok (toItems (t.insert (head :: rest))) := by
  induction rest generalizing t head with
  | nil =>
    rw [mergeDottedPath, getD_lookup_toItems, Trie.insert, ← set_toItems]
    rfl
  | cons next rest ih =>
    obtain ⟨entry, hentry, hfields, hset⟩ := toNode_fields ((t.child head).getD .nil)
    rw [mergeDottedPath, getD_lookup_toItems, hentry]
    dsimp only
    rw [hfields]
    dsimp only
    have hinsert : t.insert (head :: next :: rest) =
        t.adjust head fun c => c.insert (next :: rest) := rfl
    have hnode : toNode (((t.child head).getD .nil).insert (next :: rest)) =
        .obj [("fields", .obj (toItems (((t.child head).getD .nil).insert (next :: rest))))] :=
      toNode_of_not_isEmpty (Trie.isEmpty_adjust _ _ _)
    rw [ih, hinsert, ← set_toItems t head fun c => c.insert (next :: rest), hnode]
    simp only [bind, Except.bind, hset]

/-- The paths a shorthand lists. -/
def listedPaths (fields : String) : List (List String) :=
  (((splitOn ',' fields).map strip).filter fun path => path ≠ "").map (splitOn '.')

theorem exists_splitOn_eq_cons (sep : Char) (s : String) :
    ∃ head rest, splitOn sep s = head :: rest := by
  unfold splitOn
  cases hs : s.toList.splitOnP (· == sep) with
  | nil => exact absurd hs (List.splitOnP_ne_nil _ _)
  | cons head rest => exact ⟨_, _, List.map_cons⟩

theorem foldlM_mergePath (texts : List String) (t : Trie String) :
    texts.foldlM mergePath (toItems t) =
      .ok (toItems (((((texts.map strip).filter fun path => path ≠ "").map (splitOn '.'))).foldl
        Trie.insert t)) := by
  induction texts generalizing t with
  | nil => rfl
  | cons text texts ih =>
    rw [List.foldlM_cons, List.map_cons, mergePath]
    by_cases hblank : strip text = ""
    · rw [if_pos hblank, List.filter_cons_of_neg (by simpa using hblank)]
      exact ih t
    · obtain ⟨head, rest, hsplit⟩ := exists_splitOn_eq_cons '.' (strip text)
      rw [if_neg hblank, List.filter_cons_of_pos (by simpa using hblank), List.map_cons,
        List.foldl_cons, hsplit, mergeDottedPath_toItems]
      exact ih _

theorem shorthand_eq (fields : String) :
    shorthand fields = .ok (toItems (.ofPaths (listedPaths fields))) :=
  foldlM_mergePath (splitOn ',' fields) .nil

end SsiRest.Serializer
