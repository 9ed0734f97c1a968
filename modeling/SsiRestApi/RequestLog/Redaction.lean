import SsiRestApi.RequestLog.Body

/-!
# What redaction hides and what it keeps

`_redact` on any body Python can hand it: dictionaries with keys of any kind, lists,
tuples and scalars.  A place in a body is a path of keys and positions; it is exposed
when the path is at most `_MAX_REDACT_DEPTH` steps long and passes no sensitive key.

    (redact 0 v).valueAt p = (v.valueAt p).map (redact p.length)
                                            for an exposed p          (valueAt_redact)
    the redactor of JSON values is this one                           (ofJson_redact)
-/

namespace SsiRest.RequestLog

open Py

/-- A dictionary key: a text, or any other hashable value. -/
inductive Key (κ : Type) where
  | text (name : String)
  | other (key : κ)
  deriving DecidableEq

inductive Body (κ σ : Type) where
  | text (s : String)
  | scalar (s : σ)
  | dict (entries : List (Key κ × Body κ σ))
  | list (items : List (Body κ σ))
  | tuple (items : List (Body κ σ))

variable {κ σ : Type}

/-- `isinstance(key, str) and key.lower() in _SENSITIVE_KEYS`. -/
def Key.sensitive : Key κ → Bool
  | .text name => isSensitive name
  | .other _ => false

namespace Body

def masked : Body κ σ := .text "***"

mutual

/-- `_redact(value, depth)`. -/
def redact (depth : Nat) : Body κ σ → Body κ σ
  | .dict entries =>
    if depth > maxRedactDepth then masked else .dict (redactEntries (depth + 1) entries)
  | .list items =>
    if depth > maxRedactDepth then masked else .list (redactItems (depth + 1) items)
  | .tuple items =>
    if depth > maxRedactDepth then masked else .list (redactItems (depth + 1) items)
  | value => if depth > maxRedactDepth then masked else value

def redactItems (depth : Nat) : List (Body κ σ) → List (Body κ σ)
  | [] => []
  | item :: items => redact depth item :: redactItems depth items

def redactEntries (depth : Nat) : List (Key κ × Body κ σ) → List (Key κ × Body κ σ)
  | [] => []
  | (key, val) :: entries =>
    (key, if key.sensitive then masked else redact depth val) :: redactEntries depth entries

end

/-- What an entry's value becomes. -/
def redactValue (depth : Nat) (key : Key κ) (val : Body κ σ) : Body κ σ :=
  if key.sensitive then masked else redact depth val

theorem redactItems_eq_map (depth : Nat) (items : List (Body κ σ)) :
    redactItems depth items = items.map (redact depth) := by
  induction items with
  | nil => rfl
  | cons item items ih => rw [redactItems, ih, List.map_cons]

theorem redactEntries_eq_map (depth : Nat) (entries : List (Key κ × Body κ σ)) :
    redactEntries depth entries = entries.map fun e => (e.1, redactValue depth e.1 e.2) := by
  induction entries with
  | nil => rfl
  | cons e entries ih =>
    obtain ⟨key, val⟩ := e
    rw [redactEntries, ih, List.map_cons]
    rfl

/-- Past the depth limit nothing is left. -/
theorem redact_of_deep {depth : Nat} (h : maxRedactDepth < depth) (v : Body κ σ) :
    redact depth v = masked := by
  cases v <;> simp [redact, h]

@[simp] theorem redact_masked (depth : Nat) : redact depth (masked : Body κ σ) = masked := by
  simp [redact, masked]

/-! ## Places in a body -/

inductive Step (κ : Type) where
  | key (k : Key κ)
  | index (i : Nat)

def Step.sensitive : Step κ → Bool
  | .key k => k.sensitive
  | .index _ => false

variable [DecidableEq κ]

/-- The value under a key or at a position. -/
def child : Body κ σ → Step κ → Option (Body κ σ)
  | .dict entries, .key k => entries.lookup k
  | .list items, .index i => items[i]?
  | .tuple items, .index i => items[i]?
  | _, _ => none

/-- The value at the end of a path. -/
def valueAt (v : Body κ σ) : List (Step κ) → Option (Body κ σ)
  | [] => some v
  | s :: path => (v.child s).bind fun w => w.valueAt path

/-- A path from a place at a depth on that stays within the limit and passes no sensitive key. -/
def Exposed (depth : Nat) (path : List (Step κ)) : Prop :=
  depth + path.length ≤ maxRedactDepth ∧ ∀ s ∈ path, s.sensitive = false

theorem lookup_redactEntries (depth : Nat) (entries : List (Key κ × Body κ σ)) (key : Key κ) :
    (redactEntries depth entries).lookup key =
      (entries.lookup key).map (redactValue depth key) := by
  rw [redactEntries_eq_map]
  induction entries with
  | nil => rfl
  | cons e entries ih =>
    obtain ⟨k, val⟩ := e
    rw [List.map_cons, List.lookup_cons, List.lookup_cons, ih]
    cases hkey : key == k with
    | true => rw [eq_of_beq hkey, Option.map_some]
    | false => rfl

/-- A child of a redacted value is the redacted child, or masked under a sensitive key. -/
theorem child_redact {depth : Nat} (h : depth ≤ maxRedactDepth) (v : Body κ σ) (s : Step κ) :
    (redact depth v).child s =
      (v.child s).map fun w => if s.sensitive then masked else redact (depth + 1) w := by
  have hdepth : ¬ depth > maxRedactDepth := Nat.not_lt.mpr h
  cases v with
  | text t => cases s <;> simp [redact, child, hdepth]
  | scalar t => cases s <;> simp [redact, child, hdepth]
  | dict entries =>
    cases s with
    | key k =>
      simp only [redact, if_neg hdepth, child, lookup_redactEntries, Step.sensitive]
      rfl
    | index i => simp [redact, child, hdepth]
  | list items =>
    cases s with
    | key k => simp [redact, child, hdepth]
    | index i => simp [redact, child, hdepth, redactItems_eq_map, Step.sensitive]
  | tuple items =>
    cases s with
    | key k => simp [redact, child, hdepth]
    | index i => simp [redact, child, hdepth, redactItems_eq_map, Step.sensitive]

@[simp] theorem child_masked (s : Step κ) : (masked : Body κ σ).child s = none := by
  cases s <;> rfl

/-- At an exposed place the redacted body has the redacted value of the body. -/
theorem valueAt_redact {depth : Nat} {path : List (Step κ)} (h : Exposed depth path)
    (v : Body κ σ) :
    (redact depth v).valueAt path = (v.valueAt path).map (redact (depth + path.length)) := by
  induction path generalizing depth v with
  | nil => rfl
  | cons s path ih =>
    obtain ⟨hlength, hclean⟩ := h
    rw [List.length_cons] at hlength
    have hrest : Exposed (depth + 1) path :=
      ⟨by omega, fun t ht => hclean t (List.mem_cons_of_mem _ ht)⟩
    have hs : s.sensitive = false := hclean s List.mem_cons_self
    have hcount : depth + 1 + path.length = depth + (s :: path).length := by
      rw [List.length_cons]
      omega
    rw [valueAt, valueAt, child_redact (by omega)]
    cases v.child s with
    | none => rfl
    | some w =>
      simp only [hs, Option.map_some, Option.bind_some, Bool.false_eq_true, if_false]
      rw [ih hrest, hcount]

/-! ## What redaction keeps -/

/-- The same scalar, a dictionary with the same keys in the same order, or a list as long as
the list or tuple it is made from. -/
def KeptAs : Body κ σ → Body κ σ → Prop
  | .text s, w => w = .text s
  | .scalar s, w => w = .scalar s
  | .dict entries, w => ∃ entries', w = .dict entries' ∧
      entries'.map Prod.fst = entries.map Prod.fst
  | .list items, w => ∃ items', w = .list items' ∧ items'.length = items.length
  | .tuple items, w => ∃ items', w = .list items' ∧ items'.length = items.length

omit [DecidableEq κ] in
theorem keptAs_redact {depth : Nat} (h : depth ≤ maxRedactDepth) (v : Body κ σ) :
    v.KeptAs (redact depth v) := by
  have hdepth : ¬ depth > maxRedactDepth := Nat.not_lt.mpr h
  cases v with
  | text s => simp [KeptAs, redact, hdepth]
  | scalar s => simp [KeptAs, redact, hdepth]
  | dict entries =>
    refine ⟨redactEntries (depth + 1) entries, by rw [redact, if_neg hdepth], ?_⟩
    rw [redactEntries_eq_map, List.map_map]
    rfl
  | list items =>
    refine ⟨redactItems (depth + 1) items, by rw [redact, if_neg hdepth], ?_⟩
    rw [redactItems_eq_map, List.length_map]
  | tuple items =>
    refine ⟨redactItems (depth + 1) items, by rw [redact, if_neg hdepth], ?_⟩
    rw [redactItems_eq_map, List.length_map]

/-- What an exposed place holds is kept there, and nothing is put where nothing was. -/
theorem kept_redact {path : List (Step κ)} (h : Exposed 0 path) (v : Body κ σ) :
    Option.Rel KeptAs (v.valueAt path) ((redact 0 v).valueAt path) := by
  have hpath : 0 + path.length ≤ maxRedactDepth := h.1
  rw [valueAt_redact h]
  cases v.valueAt path with
  | none => exact .none
  | some w => exact .some (keptAs_redact hpath w)

/-! ## What redaction hides -/

/-- The same scalar, dictionaries with the same keys, lists or tuples of one length. -/
def SameNode : Body κ σ → Body κ σ → Prop
  | .text s, .text t => s = t
  | .scalar s, .scalar t => s = t
  | .dict entries, .dict entries' =>
    ∀ key, (entries.lookup key).isSome = (entries'.lookup key).isSome
  | .list items, .list items' => items.length = items'.length
  | .tuple items, .tuple items' => items.length = items'.length
  | _, _ => False

/-- Two bodies with the same node at every place: equal, but for the order of the keys. -/
def Same (v w : Body κ σ) : Prop :=
  ∀ path, Option.Rel SameNode (v.valueAt path) (w.valueAt path)

/-- Two bodies that differ only in values under sensitive keys or beyond the depth limit. -/
def SameExposed (depth : Nat) (v w : Body κ σ) : Prop :=
  ∀ path, Exposed depth path → Option.Rel SameNode (v.valueAt path) (w.valueAt path)

theorem sameNode_refl (v : Body κ σ) : SameNode v v := by
  cases v <;> simp [SameNode]

theorem same_masked : Same (masked : Body κ σ) masked := by
  intro path
  cases (masked : Body κ σ).valueAt path with
  | none => exact .none
  | some w => exact .some (sameNode_refl w)

/-- Bodies with the same node have a child at the same places. -/
theorem child_isSome_of_sameNode {v w : Body κ σ} (h : SameNode v w) (s : Step κ) :
    (v.child s).isSome = (w.child s).isSome := by
  cases v <;> cases w <;> simp only [SameNode] at h
  case text.text => cases s <;> rfl
  case scalar.scalar => cases s <;> rfl
  case dict.dict =>
    cases s with
    | key k => exact h k
    | index i => rfl
  case list.list =>
    cases s with
    | key k => rfl
    | index i => rw [Bool.eq_iff_iff, child, child, isSome_getElem?, isSome_getElem?, h]
  case tuple.tuple =>
    cases s with
    | key k => rfl
    | index i => rw [Bool.eq_iff_iff, child, child, isSome_getElem?, isSome_getElem?, h]

theorem sameNode_redact {depth : Nat} (h : depth ≤ maxRedactDepth) {v w : Body κ σ}
    (hsame : SameNode v w) : SameNode (redact depth v) (redact depth w) := by
  have hdepth : ¬ depth > maxRedactDepth := Nat.not_lt.mpr h
  cases v <;> cases w <;> simp only [SameNode] at hsame
  case text.text => simpa [redact, hdepth, SameNode] using hsame
  case scalar.scalar => simpa [redact, hdepth, SameNode] using hsame
  case dict.dict =>
    simp only [redact, if_neg hdepth, SameNode, lookup_redactEntries, Option.isSome_map]
    exact hsame
  case list.list => simpa [redact, hdepth, SameNode, redactItems_eq_map] using hsame
  case tuple.tuple => simpa [redact, hdepth, SameNode, redactItems_eq_map] using hsame

/-- The children that a step leads to differ only where the bodies may. -/
theorem SameExposed.child {depth : Nat} {v w x y : Body κ σ} {s : Step κ}
    (hsame : SameExposed depth v w) (hs : s.sensitive = false) (hx : v.child s = some x)
    (hy : w.child s = some y) : SameExposed (depth + 1) x y := by
  intro path hpath
  obtain ⟨hlength, hclean⟩ := hpath
  have hcons : Exposed depth (s :: path) := by
    refine ⟨by rw [List.length_cons]; omega, fun t ht => ?_⟩
    rcases List.mem_cons.mp ht with rfl | ht
    · exact hs
    · exact hclean t ht
  have hrel := hsame (s :: path) hcons
  rwa [valueAt, valueAt, hx, hy] at hrel

/-- What redaction makes of two bodies does not tell apart what they may differ in. -/
theorem same_redact {depth : Nat} {v w : Body κ σ} (h : SameExposed depth v w) :
    Same (redact depth v) (redact depth w) := by
  intro path
  induction path generalizing depth v w with
  | nil =>
    by_cases hdepth : depth ≤ maxRedactDepth
    · have hroot := h [] ⟨hdepth, by simp⟩
      cases hroot with
      | some hnode => exact .some (sameNode_redact hdepth hnode)
    · rw [redact_of_deep (by omega), redact_of_deep (by omega)]
      exact same_masked []
  | cons s path ih =>
    by_cases hdepth : depth ≤ maxRedactDepth
    · have hroot := h [] ⟨hdepth, by simp⟩
      cases hroot with
      | some hnode =>
        have hchild := child_isSome_of_sameNode hnode s
        rw [valueAt, valueAt, child_redact hdepth, child_redact hdepth]
        cases hx : v.child s with
        | none =>
          rw [hx, Option.isSome_none] at hchild
          have hy : w.child s = none := by simpa using hchild.symm
          rw [hy]
          exact .none
        | some x =>
          rw [hx, Option.isSome_some] at hchild
          obtain ⟨y, hy⟩ := Option.isSome_iff_exists.mp hchild.symm
          rw [hy]
          cases hs : s.sensitive with
          | true => exact same_masked path
          | false => exact ih (h.child hs hx hy)
    · rw [redact_of_deep (by omega), redact_of_deep (by omega)]
      exact same_masked (s :: path)

/-! ## Redacting again -/

omit [DecidableEq κ] in
mutual

theorem redact_redact (depth : Nat) (v : Body κ σ) :
    redact depth (redact depth v) = redact depth v := by
  by_cases hdepth : depth > maxRedactDepth
  · rw [redact_of_deep hdepth v, redact_masked]
  · cases v with
    | text s => simp [redact, hdepth]
    | scalar s => simp [redact, hdepth]
    | dict entries =>
      simp only [redact, if_neg hdepth]
      rw [redactEntries_redactEntries (depth + 1) entries]
    | list items =>
      simp only [redact, if_neg hdepth]
      rw [redactItems_redactItems (depth + 1) items]
    | tuple items =>
      simp only [redact, if_neg hdepth]
      rw [redactItems_redactItems (depth + 1) items]

theorem redactItems_redactItems (depth : Nat) (items : List (Body κ σ)) :
    redactItems depth (redactItems depth items) = redactItems depth items := by
  cases items with
  | nil => rfl
  | cons item items =>
    simp only [redactItems]
    rw [redact_redact depth item, redactItems_redactItems depth items]

theorem redactEntries_redactEntries (depth : Nat) (entries : List (Key κ × Body κ σ)) :
    redactEntries depth (redactEntries depth entries) = redactEntries depth entries := by
  cases entries with
  | nil => rfl
  | cons e entries =>
    obtain ⟨key, val⟩ := e
    simp only [redactEntries]
    rw [redactEntries_redactEntries depth entries]
    cases key.sensitive with
    | true => rfl
    | false =>
      simp only [Bool.false_eq_true, if_false]
      rw [redact_redact depth val]

end

/-- Redaction is a barrier to what it hides, keeps the rest in place, and leaves nothing to
redact. -/
theorem redact_spec :
    (∀ v w : Body κ σ, SameExposed 0 v w → Same (redact 0 v) (redact 0 w)) ∧
      (∀ (v : Body κ σ) (path : List (Step κ)), Exposed 0 path →
        Option.Rel KeptAs (v.valueAt path) ((redact 0 v).valueAt path)) ∧
      ∀ v : Body κ σ, redact 0 (redact 0 v) = redact 0 v :=
  ⟨fun _ _ h => same_redact h, fun v _ h => kept_redact h v, redact_redact 0⟩

/-! ## The bodies that come as JSON -/

mutual

/-- A JSON value as a body. -/
def ofJson : Json → Body κ Json
  | .str s => .text s
  | .arr items => .list (ofItems items)
  | .obj fields => .dict (ofFields fields)
  | value => .scalar value

def ofItems : List Json → List (Body κ Json)
  | [] => []
  | item :: items => ofJson item :: ofItems items

def ofFields : Kw → List (Key κ × Body κ Json)
  | [] => []
  | (key, val) :: fields => (.text key, ofJson val) :: ofFields fields

end

omit [DecidableEq κ] in
mutual

/-- The redactor of JSON values is this one. -/
theorem ofJson_redact (depth : Nat) (v : Json) :
    (ofJson (RequestLog.redact depth v) : Body κ Json) = redact depth (ofJson v) := by
  by_cases hdepth : depth > maxRedactDepth
  · rw [redact_of_deep hdepth]
    cases v <;> simp [RequestLog.redact, hdepth, redacted, ofJson, masked]
  · cases v with
    | arr items =>
      simp only [RequestLog.redact, if_neg hdepth, ofJson, redact]
      rw [ofItems_redactItems (depth + 1) items]
    | obj fields =>
      simp only [RequestLog.redact, if_neg hdepth, ofJson, redact]
      rw [ofFields_redactFields (depth + 1) fields]
    | _ => simp [RequestLog.redact, hdepth, ofJson, redact]

theorem ofItems_redactItems (depth : Nat) (items : List Json) :
    (ofItems (RequestLog.redactItems depth items) : List (Body κ Json)) =
      redactItems depth (ofItems items) := by
  cases items with
  | nil => rfl
  | cons item items =>
    simp only [RequestLog.redactItems, ofItems, redactItems]
    rw [ofJson_redact depth item, ofItems_redactItems depth items]

theorem ofFields_redactFields (depth : Nat) (fields : Kw) :
    (ofFields (redactFields depth fields) : List (Key κ × Body κ Json)) =
      redactEntries depth (ofFields fields) := by
  cases fields with
  | nil => rfl
  | cons field fields =>
    obtain ⟨key, val⟩ := field
    have hkey : (Key.text key : Key κ).sensitive = isSensitive key := rfl
    simp only [redactFields, ofFields, redactEntries]
    rw [ofFields_redactFields depth fields]
    by_cases hsensitive : isSensitive key = true
    · rw [if_pos hsensitive, if_pos (hkey.trans hsensitive)]
      simp only [redacted, ofJson, masked]
    · rw [if_neg hsensitive, if_neg (hkey ▸ hsensitive), ofJson_redact depth val]

end

end Body

end SsiRest.RequestLog
