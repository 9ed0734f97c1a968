import Mathlib.Data.List.Basic

/-!
# Nested dictionaries of keys

A trie is an ordered dictionary from keys to tries.  A path is inserted by going down its
keys, each put at the end of its dictionary where it is new.

    the paths of a trie made from paths are their prefixes               (has_ofPaths)
    what is inserted after is merged from a trie of its own              (ofPaths_append)
-/

/-- A dictionary: a key with the dictionary under it, and the rest. -/
inductive Trie (κ : Type) where
  | nil
  | node (key : κ) (children : Trie κ) (rest : Trie κ)

namespace Trie

variable {κ : Type}

def isEmpty : Trie κ → Bool
  | nil => true
  | node _ _ _ => false

def keys : Trie κ → List κ
  | nil => []
  | node key _ rest => key :: rest.keys

/-- No key occurs twice in a dictionary. -/
def Distinct : Trie κ → Prop
  | nil => True
  | node key children rest => key ∉ rest.keys ∧ Distinct children ∧ Distinct rest

theorem Distinct.nodup_keys {t : Trie κ} (h : t.Distinct) : t.keys.Nodup := by
  induction t with
  | nil => exact List.nodup_nil
  | node key children rest _ ih => exact List.nodup_cons.mpr ⟨h.1, ih h.2.2⟩

variable [DecidableEq κ]

/-- What a dictionary has under a key. -/
def child : Trie κ → κ → Option (Trie κ)
  | nil, _ => none
  | node key children rest, k => if key = k then some children else rest.child k

/-- The path leads from the root to a dictionary. -/
def Has : Trie κ → List κ → Prop
  | _, [] => True
  | t, k :: path => ∃ c, t.child k = some c ∧ Has c path

/-- Change what is under a key, after putting an empty dictionary there if it is new. -/
def adjust (t : Trie κ) (k : κ) (f : Trie κ → Trie κ) : Trie κ :=
  match t with
  | nil => node k (f nil) nil
  | node key children rest =>
    if key = k then node key (f children) rest else node key children (rest.adjust k f)

def insert : Trie κ → List κ → Trie κ
  | t, [] => t
  | t, k :: path => t.adjust k fun c => insert c path

/-- The keys of the second are put into the first, and what is under them into what was. -/
def merge : Trie κ → Trie κ → Trie κ
  | t, nil => t
  | t, node key children rest => merge (t.adjust key fun c => merge c children) rest

def ofPaths (paths : List (List κ)) : Trie κ := paths.foldl insert nil

/-! ## Adjusting -/

theorem child_adjust (t : Trie κ) (k k' : κ) (f : Trie κ → Trie κ) :
    (t.adjust k f).child k' = if k = k' then some (f ((t.child k).getD nil)) else t.child k' := by
  induction t with
  | nil =>
    by_cases h : k = k' <;> simp [adjust, child, h]
  | node key children rest _ ih =>
    rw [adjust]
    by_cases hkey : key = k
    · subst hkey
      by_cases h : key = k' <;> simp [child, h]
    · by_cases hkey' : key = k'
      · subst hkey'
        simp [child, hkey, Ne.symm hkey]
      · simp [child, hkey, hkey', ih]

theorem child_eq_none_iff {t : Trie κ} {k : κ} : t.child k = none ↔ k ∉ t.keys := by
  induction t with
  | nil => simp [child, keys]
  | node key children rest _ ih =>
    by_cases h : key = k
    · simp [child, keys, h]
    · simp [child, keys, h, ih, Ne.symm h]

theorem mem_keys_iff {t : Trie κ} {k : κ} : k ∈ t.keys ↔ ∃ c, t.child k = some c := by
  rw [← not_iff_not, ← child_eq_none_iff, ← Option.ne_none_iff_exists', not_not]

theorem keys_adjust (t : Trie κ) (k : κ) (f : Trie κ → Trie κ) :
    (t.adjust k f).keys = if k ∈ t.keys then t.keys else t.keys ++ [k] := by
  induction t with
  | nil => rfl
  | node key children rest _ ih =>
    rw [adjust]
    by_cases h : key = k
    · simp [keys, h]
    · rw [if_neg h, keys, ih, keys]
      by_cases hrest : k ∈ rest.keys <;> simp [hrest, Ne.symm h]

theorem mem_keys_adjust {t : Trie κ} {k k' : κ} {f : Trie κ → Trie κ} :
    k' ∈ (t.adjust k f).keys ↔ k' = k ∨ k' ∈ t.keys := by
  rw [keys_adjust]
  by_cases h : k ∈ t.keys
  · rw [if_pos h]
    exact ⟨Or.inr, fun h' => h'.elim (fun he => he ▸ h) id⟩
  · rw [if_neg h, List.mem_append, List.mem_singleton, or_comm]

theorem isEmpty_adjust (t : Trie κ) (k : κ) (f : Trie κ → Trie κ) :
    (t.adjust k f).isEmpty = false := by
  cases t with
  | nil => rfl
  | node key children rest =>
    rw [adjust]
    split <;> rfl

theorem adjust_adjust (t : Trie κ) (k : κ) (f g : Trie κ → Trie κ) :
    (t.adjust k f).adjust k g = t.adjust k fun c => g (f c) := by
  induction t with
  | nil => simp [adjust]
  | node key children rest _ ih =>
    by_cases h : key = k <;> simp [adjust, h, ih]

/-- Changes under different keys commute, unless both keys are new. -/
theorem adjust_comm {t : Trie κ} {k k' : κ} (hne : k ≠ k') (hk : k ∈ t.keys)
    (f g : Trie κ → Trie κ) : (t.adjust k f).adjust k' g = (t.adjust k' g).adjust k f := by
  induction t with
  | nil => cases hk
  | node key children rest _ ih =>
    by_cases h : key = k
    · subst h
      simp [adjust, hne]
    · have hrest : k ∈ rest.keys := (List.mem_cons.mp hk).resolve_left (Ne.symm h)
      by_cases h' : key = k'
      · subst h'
        simp [adjust, h]
      · simp [adjust, h, h', ih hrest]

/-! ## Distinct keys -/

theorem Distinct.child {t : Trie κ} (h : t.Distinct) {k : κ} {c : Trie κ}
    (hc : t.child k = some c) : c.Distinct := by
  induction t with
  | nil => cases hc
  | node key children rest _ ih =>
    obtain ⟨-, hchildren, hrest⟩ := h
    rw [Trie.child] at hc
    split at hc
    · cases hc
      exact hchildren
    · exact ih hrest hc

theorem Distinct.adjust {t : Trie κ} (h : t.Distinct) {k : κ} {f : Trie κ → Trie κ}
    (hf : ∀ c : Trie κ, c.Distinct → (f c).Distinct) : (t.adjust k f).Distinct := by
  induction t with
  | nil => exact ⟨List.not_mem_nil, hf nil trivial, trivial⟩
  | node key children rest _ ih =>
    obtain ⟨hkey, hchildren, hrest⟩ := h
    rw [Trie.adjust]
    split
    · exact ⟨hkey, hf children hchildren, hrest⟩
    · next hne =>
      refine ⟨fun hmem => ?_, hchildren, ih hrest⟩
      rcases mem_keys_adjust.mp hmem with rfl | hmem
      · exact hne rfl
      · exact hkey hmem

theorem Distinct.insert {t : Trie κ} (h : t.Distinct) (path : List κ) : (t.insert path).Distinct := by
  induction path generalizing t with
  | nil => exact h
  | cons k path ih => exact h.adjust fun c hc => ih hc

theorem distinct_foldl_insert {t : Trie κ} (h : t.Distinct) (paths : List (List κ)) :
    (paths.foldl insert t).Distinct := by
  induction paths generalizing t with
  | nil => exact h
  | cons path paths ih => exact ih (h.insert path)

theorem distinct_ofPaths (paths : List (List κ)) : (ofPaths paths).Distinct :=
  distinct_foldl_insert (show (nil : Trie κ).Distinct from trivial) paths

/-! ## Paths -/

theorem has_nil_iff {path : List κ} : (nil : Trie κ).Has path ↔ path = [] := by
  cases path with
  | nil => simp [Has]
  | cons k path => simp [Has, child]

/-- **Insertion.**  Induction on the inserted path: its prefixes are new, all other paths stay. -/
theorem has_insert {t : Trie κ} {path q : List κ} :
    (t.insert path).Has q ↔ t.Has q ∨ q <+: path := by
  induction path generalizing t q with
  | nil =>
    rw [insert, List.prefix_nil]
    refine ⟨Or.inl, fun h => h.elim id ?_⟩
    rintro rfl
    trivial
  | cons k path ih =>
    cases q with
    | nil => simp [Has]
    | cons k' q =>
      rw [insert, Has, child_adjust, Has]
      by_cases h : k = k'
      · subst h
        rw [List.cons_prefix_cons]
        simp only [if_true, Option.some.injEq, exists_eq_left', ih, true_and]
        cases t.child k with
        | some c => simp
        | none =>
          -- the new dictionary has the empty path only, which is a prefix
          have hempty : q = [] → q <+: path := fun h => h ▸ List.nil_prefix
          simpa [has_nil_iff] using hempty
      · rw [if_neg h, List.cons_prefix_cons]
        simp [Ne.symm h]

theorem has_foldl_insert {t : Trie κ} {paths : List (List κ)} {q : List κ} :
    (paths.foldl insert t).Has q ↔ t.Has q ∨ ∃ path ∈ paths, q <+: path := by
  induction paths generalizing t with
  | nil => simp
  | cons path paths ih => rw [List.foldl_cons, ih, has_insert, or_assoc, List.exists_mem_cons_iff]

/-- The paths of a trie made from paths are their prefixes. -/
theorem has_ofPaths {paths : List (List κ)} {q : List κ} :
    (ofPaths paths).Has q ↔ q = [] ∨ ∃ path ∈ paths, q <+: path := by
  rw [ofPaths, has_foldl_insert, has_nil_iff]

/-! ## The same paths -/

/-- What two tries with the same paths have under a key has the same paths. -/
theorem has_child_congr {t u : Trie κ} (h : ∀ q, t.Has q ↔ u.Has q) {k : κ} {c d : Trie κ}
    (hc : t.child k = some c) (hd : u.child k = some d) (q : List κ) : c.Has q ↔ d.Has q := by
  have hq := h (k :: q)
  rw [Has, Has, hc, hd] at hq
  simpa using hq

/-! ## Merging -/

theorem isEmpty_merge {t : Trie κ} (h : t.isEmpty = false) (u : Trie κ) :
    (merge t u).isEmpty = false := by
  induction u generalizing t with
  | nil => exact h
  | node key children rest _ ih => exact ih (isEmpty_adjust t key _)

theorem merge_adjust {t u : Trie κ} {k : κ} (ht : k ∈ t.keys) (hu : k ∉ u.keys)
    (f : Trie κ → Trie κ) : merge (t.adjust k f) u = (merge t u).adjust k f := by
  induction u generalizing t with
  | nil => rfl
  | node key children rest _ ih =>
    rw [keys, List.mem_cons, not_or] at hu
    rw [merge, merge, adjust_comm hu.1 ht, ih (mem_keys_adjust.mpr (Or.inr ht)) hu.2]

/-- **Merging a path.**  Induction on the path, in it on the trie that is merged: a path inserted
into it is a path inserted into the result. -/
theorem merge_insert {u : Trie κ} (hu : u.Distinct) (t : Trie κ) (path : List κ) :
    merge t (u.insert path) = (merge t u).insert path := by
  induction path generalizing t u with
  | nil => rfl
  | cons k path ih =>
    induction u generalizing t with
    | nil =>
      have hnew : (fun c => merge c (nil.insert path)) = fun c => c.insert path :=
        funext fun c => ih (u := nil) trivial c
      have hmerge : merge t ((nil : Trie κ).insert (k :: path)) =
          t.adjust k fun c => merge c (nil.insert path) := rfl
      rw [hmerge, hnew]
      rfl
    | node key children rest _ ihRest =>
      obtain ⟨hkey, hchildren, hrest⟩ := hu
      rw [insert, adjust]
      by_cases h : key = k
      · subst h
        rw [if_pos rfl, merge, merge, insert]
        have hnew : (fun c => merge c (children.insert path)) =
            fun c => (merge c children).insert path := funext fun c => ih hchildren c
        rw [hnew, ← adjust_adjust t key (fun c => merge c children) fun c => c.insert path,
          merge_adjust (mem_keys_adjust.mpr (Or.inl rfl)) hkey]
      · rw [if_neg h, merge, merge]
        exact ihRest hrest _

theorem merge_foldl_insert {u : Trie κ} (hu : u.Distinct) (t : Trie κ) (paths : List (List κ)) :
    merge t (paths.foldl insert u) = paths.foldl insert (merge t u) := by
  induction paths generalizing u with
  | nil => rfl
  | cons path paths ih => rw [List.foldl_cons, ih (hu.insert path), merge_insert hu, List.foldl_cons]

/-- What is inserted after is merged from a trie of its own. -/
theorem ofPaths_append (paths paths' : List (List κ)) :
    ofPaths (paths ++ paths') = merge (ofPaths paths) (ofPaths paths') := by
  have hmerge := merge_foldl_insert (u := nil) trivial (ofPaths paths) paths'
  rw [merge] at hmerge
  rw [ofPaths, List.foldl_append]
  exact hmerge.symm

end Trie
