import Mathlib.Data.Rat.Defs
import SsiRestApi.Lib.Text

/-!
# JSON values as Python sees them

What `json.loads` returns, with Python's truth value and `a or b`, the text
`json.dumps` makes of it, and dictionaries with text keys.  A float carries its exact
value and its `repr`.  A form can also hold an object JSON does not know, such as an
uploaded file.

    a merged dictionary has the new value, else the old one       (Kw.lookup_update)
-/

namespace Py

inductive PyFloat where
  | fin (value : ℚ) (repr : String)
  | nan
  | inf (negative : Bool)
  deriving DecidableEq

inductive Json where
  | null
  | bool (b : Bool)
  | int (i : Int)
  | float (f : PyFloat)
  | str (s : String)
  | arr (items : List Json)
  | obj (fields : List (String × Json))
  | foreign (type : String)

namespace Json

/-- `bool(v)`. -/
def truthy : Json → Bool
  | null => false
  | bool b => b
  | int i => i != 0
  | float (.fin q _) => q != 0
  | float _ => true
  | str s => s != ""
  | arr items => !items.isEmpty
  | obj fields => !fields.isEmpty
  | foreign _ => true

/-- `a or b`. -/
def orElse (a b : Json) : Json := if a.truthy then a else b

/-- A field of an object. -/
def field (v : Json) (key : String) : Option Json :=
  match v with
  | obj fields => fields.lookup key
  | _ => none

/-- `v == s` for a text `s`. -/
def isStr (v : Json) (s : String) : Bool :=
  match v with
  | str t => t == s
  | _ => false

theorem isStr_iff (v : Json) (s : String) : v.isStr s = true ↔ v = str s := by
  cases v <;> simp [isStr]

theorem eq_str_of_isStr {v : Json} {s : String} (h : v.isStr s = true) : v = str s :=
  (isStr_iff v s).mp h

@[simp] theorem isStr_str (s t : String) : (str s).isStr t = (s == t) := rfl

@[simp] theorem truthy_str (s : String) : (str s).truthy = (s != "") := rfl

/-! ## Writing -/

/-- Four hexadecimal digits. -/
def hex4 (n : Nat) : List Char :=
  [n / 4096, n / 256, n / 16, n].map fun d => Nat.digitChar (d % 16)

def escapeUnit (n : Nat) : List Char := '\\' :: 'u' :: hex4 n

/-- A character inside the quotes. -/
def escapeChar (ensureAscii : Bool) (c : Char) : List Char :=
  if c = '"' then ['\\', '"']
  else if c = '\\' then ['\\', '\\']
  else match c.toNat with
    | 0x08 => ['\\', 'b']
    | 0x09 => ['\\', 't']
    | 0x0a => ['\\', 'n']
    | 0x0c => ['\\', 'f']
    | 0x0d => ['\\', 'r']
    | n =>
      if n < 0x20 then escapeUnit n
      else if n ≤ 0x7e || !ensureAscii then [c]
      else if n < 0x10000 then escapeUnit n
      else
        -- a surrogate pair
        escapeUnit (0xd800 + (n - 0x10000) / 0x400) ++ escapeUnit (0xdc00 + (n - 0x10000) % 0x400)

def quote (ensureAscii : Bool) (s : String) : String :=
  String.ofList ('"' :: (s.toList.flatMap (escapeChar ensureAscii)) ++ ['"'])

def floatText : PyFloat → String
  | .fin _ repr => repr
  | .nan => "NaN"
  | .inf false => "Infinity"
  | .inf true => "-Infinity"

mutual

/-- `json.dumps(v, ensure_ascii=…)`; `none` is its `TypeError` on a foreign object. -/
def dumps (ensureAscii : Bool) : Json → Option String
  | null => some "null"
  | bool b => some (if b then "true" else "false")
  | int i => some (toString i)
  | float f => some (floatText f)
  | str s => some (quote ensureAscii s)
  | arr items => (dumpsItems ensureAscii items).map fun texts => "[" ++ join ", " texts ++ "]"
  | obj fields =>
    (dumpsFields ensureAscii fields).map fun texts => "\x7b" ++ join ", " texts ++ "\x7d"
  | foreign _ => none

def dumpsItems (ensureAscii : Bool) : List Json → Option (List String)
  | [] => some []
  | v :: items =>
    match dumps ensureAscii v, dumpsItems ensureAscii items with
    | some text, some texts => some (text :: texts)
    | _, _ => none

def dumpsFields (ensureAscii : Bool) : List (String × Json) → Option (List String)
  | [] => some []
  | (key, v) :: fields =>
    match dumps ensureAscii v, dumpsFields ensureAscii fields with
    | some text, some texts => some ((quote ensureAscii key ++ ": " ++ text) :: texts)
    | _, _ => none

end

/-- A field of an object and its value. -/
def fieldText (ensureAscii : Bool) (field : String × Json) : Option String :=
  (dumps ensureAscii field.2).map fun text => quote ensureAscii field.1 ++ ": " ++ text

/-- The fields of an object are written when each of them is. -/
theorem dumpsFields_eq_some_iff {ensureAscii : Bool} {fields : List (String × Json)}
    {texts : List String} :
    dumpsFields ensureAscii fields = some texts ↔
      fields.map (fieldText ensureAscii) = texts.map some := by
  induction fields generalizing texts with
  | nil => cases texts <;> simp [dumpsFields]
  | cons field fields ih =>
    obtain ⟨key, v⟩ := field
    rw [dumpsFields, List.map_cons, fieldText]
    cases hv : dumps ensureAscii v with
    | none => cases texts <;> simp
    | some text =>
      cases hfields : dumpsFields ensureAscii fields with
      | none =>
        have hnone : ∀ ts : List String, fields.map (fieldText ensureAscii) ≠ ts.map some :=
          fun ts h => by rw [ih.mpr h] at hfields; cases hfields
        cases texts with
        | nil => simp
        | cons t texts => simpa using fun _ => hnone texts
      | some ts =>
        have hts := ih.mp hfields
        cases texts with
        | nil => simp
        | cons t texts =>
          have hinj : Function.Injective (some : String → Option String) :=
            fun _ _ => Option.some.inj
          simp [hts, (List.map_injective_iff.mpr hinj).eq_iff]

end Json

/-- Keyword arguments: the merged request parameters. -/
abbrev Kw := List (String × Json)

/-- `kw.get(key)`. -/
def Kw.get (kw : Kw) (key : String) : Json := (kw.lookup key).getD .null

/-- `{**kw, **new}`: a key keeps its place and takes its new value, new keys follow. -/
def Kw.update (kw new : Kw) : Kw :=
  (kw.map fun field => (field.1, (new.lookup field.1).getD field.2)) ++
    new.filter fun field => (kw.lookup field.1).isNone

theorem Kw.update_nil (kw : Kw) : kw.update [] = kw := by
  simp [Kw.update]

theorem Kw.mem_of_lookup {kw : Kw} {key : String} {v : Json} (h : kw.lookup key = some v) :
    (key, v) ∈ kw := by
  obtain ⟨before, after, rfl, -⟩ := List.lookup_eq_some_iff.mp h
  simp

theorem lookup_map_value (kw : Kw) (f : String → Json → Json) (key : String) :
    (kw.map fun field => (field.1, f field.1 field.2)).lookup key =
      (kw.lookup key).map (f key) := by
  induction kw with
  | nil => rfl
  | cons field kw ih =>
    obtain ⟨k, v⟩ := field
    by_cases h : key = k
    · subst h
      simp
    · have hb : (key == k) = false := beq_false_of_ne h
      simp only [List.map_cons, List.lookup_cons, hb]
      exact ih

theorem lookup_filter_key (kw : Kw) (p : String → Bool) (key : String) :
    (kw.filter fun field => p field.1).lookup key = if p key then kw.lookup key else none := by
  induction kw with
  | nil => simp
  | cons field kw ih =>
    obtain ⟨k, v⟩ := field
    by_cases h : key = k
    · subst h
      cases hp : p key <;> simp [hp, ih]
    · have hb : (key == k) = false := beq_false_of_ne h
      cases hp : p k <;> simp [hp, hb, List.lookup_cons, ih]

/-- The merged dictionary has the new value of a key, else the old one. -/
theorem Kw.lookup_update (kw new : Kw) (key : String) :
    (kw.update new).lookup key = (new.lookup key).or (kw.lookup key) := by
  unfold Kw.update
  rw [List.lookup_append, lookup_map_value kw (fun k v => (new.lookup k).getD v),
    lookup_filter_key new (fun k => (kw.lookup k).isNone)]
  cases kw.lookup key <;> cases new.lookup key <;> rfl

end Py
