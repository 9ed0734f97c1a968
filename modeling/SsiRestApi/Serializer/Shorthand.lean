import SsiRestApi.Serializer.Query

/-!
# The fields shorthand

A comma-separated list of dotted paths builds nested dictionaries in place.  They are the
trie of the listed paths.

    its paths are the prefixes of the listed ones, lists with the same prefixes build equal
      dictionaries, and a list after another builds the merged ones      (fieldsShorthand)
-/

namespace SsiRest.Serializer

open Py

/-! ## Paths -/

/-- What is nested under a node. -/
def nestedItems : Json → Kw
  | .obj entries =>
    match entries.lookup "fields" with
    | some (.obj items) => items
    | _ => []
  | _ => []

/-- The dictionary that a path leads to from the root. -/
def nodeAt : Kw → List String → Option Kw
  | specification, [] => some specification
  | specification, head :: rest =>
    (specification.lookup head).bind fun node => nodeAt (nestedItems node) rest

/-- A dotted path as the shorthand may list it. -/
structure Listable (path : String) : Prop where
  nonblank : path ≠ ""
  stripped : strip path = path
  comma_free : ',' ∉ path.toList
  unreserved : (splitOn '.' path).head? ≠ some optionsKey

/-- A path that starts a listed one. -/
def Listed (paths : List String) (path : List String) : Prop :=
  ∃ p ∈ paths, path <+: splitOn '.' p

/-- `_specification_from_query` builds this from the joined paths. -/
def Builds (str : Json → String) (paths : List String) (specification : Kw) : Prop :=
  ∀ query : Kw, (query.get "specification").truthy = false →
    query.get "fields" = .str (join "," paths) →
      (specificationFromQuery str query).map popOptions =
        .ok (specification.map fun f => (.str f.1, f.2))

theorem nestedItems_toNode (t : Trie String) : nestedItems (toNode t) = toItems t := by
  cases t <;> rfl

theorem nodeAt_toItems_isSome {t : Trie String} {path : List String} :
    (nodeAt (toItems t) path).isSome = true ↔ t.Has path := by
  induction path generalizing t with
  | nil => exact iff_of_true rfl trivial
  | cons head rest ih =>
    rw [nodeAt, lookup_toItems, Trie.Has]
    cases hchild : t.child head with
    | none => simp
    | some c =>
      rw [Option.map_some, Option.bind_some, nestedItems_toNode, ih]
      simp

/-! ## Equal dictionaries -/

theorem mem_keys_of_mem {t : Trie String} {f : String × Json} (h : f ∈ toItems t) :
    f.1 ∈ t.keys := by
  induction t with
  | nil => cases h
  | node key children rest _ ih =>
    rcases List.mem_cons.mp h with rfl | h
    · exact List.mem_cons_self
    · exact List.mem_cons_of_mem _ (ih h)

theorem length_toItems (t : Trie String) : (toItems t).length = t.keys.length := by
  induction t with
  | nil => rfl
  | node key children rest _ ih => rw [toItems_node, List.length_cons, ih, Trie.keys, List.length_cons]

theorem length_keys_eq {t u : Trie String} (ht : t.Distinct) (hu : u.Distinct)
    (h : ∀ q, t.Has q ↔ u.Has q) : t.keys.length = u.keys.length := by
  refine ((List.perm_ext_iff_of_nodup ht.nodup_keys hu.nodup_keys).mpr fun k => ?_).length_eq
  rw [Trie.mem_keys_iff, Trie.mem_keys_iff]
  simpa [Trie.Has] using h [k]

theorem eq_obj {fields fields' : Kw} (hlength : fields.length = fields'.length)
    (h : Json.eqFields fields fields' = true) : Json.eq (.obj fields) (.obj fields') = true := by
  rw [Json.eq, h, hlength, beq_self_eq_true, Bool.and_self]

theorem eq_toNode {t u : Trie String} (hlength : t.keys.length = u.keys.length)
    (h : Json.eqFields (toItems t) (toItems u) = true) : Json.eq (toNode t) (toNode u) = true := by
  have hitems : Json.eq (.obj (toItems t)) (.obj (toItems u)) = true :=
    eq_obj (by rw [length_toItems, length_toItems, hlength]) h
  cases t with
  | nil =>
    cases u with
    | nil => rfl
    | node => cases hlength
  | node =>
    cases u with
    | nil => cases hlength
    | node =>
      rw [toNode_of_not_isEmpty rfl, toNode_of_not_isEmpty rfl]
      refine eq_obj rfl ?_
      simp only [Json.eqFields, List.lookup_cons_self, hitems, Bool.and_self]

/-- Induction on the first trie, over the part of its dictionary that is left. -/
theorem eqFields_toItems {t : Trie String} {u : Trie String}
    (h : ∀ k c, t.child k = some c → ∃ d, u.child k = some d ∧ d.Distinct ∧ ∀ q, c.Has q ↔ d.Has q)
    (ht : t.Distinct) : Json.eqFields (toItems t) (toItems u) = true := by
  induction t generalizing u with
  | nil => rw [toItems, Json.eqFields]
  | node key children rest ihChildren ihRest =>
    obtain ⟨hkey, hchildren, hrest⟩ := ht
    obtain ⟨d, hd, hdistinct, hsame⟩ := h key children (if_pos rfl)
    rw [toItems_node, Json.eqFields, lookup_toItems, hd, Option.map_some, Bool.and_eq_true]
    constructor
    · have hfields : Json.eqFields (toItems children) (toItems d) = true := by
        refine ihChildren (fun k c hc => ?_) hchildren
        obtain ⟨d', hd', -⟩ := (hsame [k]).mp ⟨c, hc, trivial⟩
        exact ⟨d', hd', hdistinct.child hd', Trie.has_child_congr hsame hc hd'⟩
      exact eq_toNode (length_keys_eq hchildren hdistinct hsame) hfields
    · refine ihRest (fun k c hc => h k c ?_) hrest
      rw [Trie.child, if_neg, hc]
      rintro rfl
      exact hkey (Trie.mem_keys_iff.mpr ⟨c, hc⟩)

/-- Tries with the same paths are equal dictionaries. -/
theorem eq_toItems {t u : Trie String} (ht : t.Distinct) (hu : u.Distinct)
    (h : ∀ q, t.Has q ↔ u.Has q) : Json.eq (.obj (toItems t)) (.obj (toItems u)) = true := by
  refine eq_obj (by rw [length_toItems, length_toItems, length_keys_eq ht hu h])
    (eqFields_toItems (fun k c hc => ?_) ht)
  obtain ⟨d, hd, -⟩ := (h [k]).mp ⟨c, hc, trivial⟩
  exact ⟨d, hd, hu.child hd, Trie.has_child_congr h hc hd⟩

/-! ## Merged dictionaries -/

/-- Induction on the second trie: its dictionary is merged over that of the first. -/
theorem toItems_merge (t u : Trie String) :
    toItems (.merge t u) = mergeFields (toItems u) (toItems t) := by
  induction u generalizing t with
  | nil => rw [Trie.merge, toItems, mergeFields]
  | node key children rest ihChildren ihRest =>
    have hnode : ∀ c : Trie String,
        Json.mergeOver (toNode children) (toNode c) = toNode (.merge c children) := by
      intro c
      obtain ⟨entry, hentry, hfields, hset⟩ := toNode_fields c
      cases children with
      | nil =>
        have hleaf : toNode .nil = .obj [] := rfl
        rw [hentry, hleaf, Json.mergeOver, mergeFields, Trie.merge, hentry]
      | node key' children' rest' =>
        have hmerged : (Trie.merge c (.node key' children' rest')).isEmpty = false :=
          Trie.isEmpty_merge (Trie.isEmpty_adjust c key' _) rest'
        rw [toNode_of_not_isEmpty hmerged, toNode_of_not_isEmpty rfl, hentry, Json.mergeOver,
          mergeFields, hfields, Json.mergeOver, ← ihChildren c, hset, mergeFields]
    rw [Trie.merge, ihRest, toItems_node, mergeFields, getD_lookup_toItems, hnode, ← set_toItems]

/-! ## What a list builds -/

theorem builds_toItems (str : Json → String) {paths : List String}
    (h : ∀ p ∈ paths, Listable p) :
    Builds str paths (toItems (.ofPaths (paths.map (splitOn '.')))) := by
  intro query hspecification hfields
  have hreserved : popOptions ((toItems (.ofPaths (paths.map (splitOn '.')))).map
      fun f => (.str f.1, f.2)) = (toItems (.ofPaths (paths.map (splitOn '.')))).map
        fun f => (.str f.1, f.2) := by
    refine List.filter_eq_self.mpr (List.forall_mem_map.mpr fun f hf => ?_)
    have hkey := mem_keys_of_mem hf
    obtain ⟨c, hc⟩ := Trie.mem_keys_iff.mp hkey
    have hhas : (Trie.ofPaths (paths.map (splitOn '.'))).Has [f.1] := ⟨c, hc, trivial⟩
    obtain hnil | ⟨path, hpath, hprefix⟩ := Trie.has_ofPaths.mp hhas
    · cases hnil
    · obtain ⟨p, hp, rfl⟩ := List.mem_map.mp hpath
      obtain ⟨rest, hrest⟩ := hprefix
      have hne := (h p hp).unreserved
      rw [← hrest] at hne
      simpa [Json.isStr] using hne
  rw [specificationFromQuery, hspecification, if_neg Bool.false_ne_true, hfields]
  cases paths with
  | nil => rfl
  | cons p paths =>
    have hsplit : splitOn ',' (join "," (p :: paths)) = p :: paths :=
      splitOn_join (List.cons_ne_nil _ _) fun q hq => (h q hq).comma_free
    have htext : (Json.str (join "," (p :: paths))).truthy = true := by
      refine bne_iff_ne.mpr fun hempty => (h p List.mem_cons_self).nonblank ?_
      rw [hempty] at hsplit
      exact (List.cons.inj hsplit).1.symm
    have hlisted : listedPaths (join "," (p :: paths)) = (p :: paths).map (splitOn '.') := by
      have hstrip : (p :: paths).map strip = p :: paths :=
        (List.map_congr_left fun q hq => (h q hq).stripped).trans (List.map_id _)
      have hkept : (p :: paths).filter (fun q => q ≠ "") = p :: paths :=
        List.filter_eq_self.mpr fun q hq => by simpa using (h q hq).nonblank
      rw [listedPaths, hsplit, hstrip, hkept]
    rw [if_pos htext, strOf, shorthand_eq, hlisted]
    exact congrArg Except.ok hreserved

theorem has_ofPaths_split {paths path : List String} :
    (Trie.ofPaths (paths.map (splitOn '.'))).Has path ↔ path = [] ∨ Listed paths path := by
  rw [Trie.has_ofPaths]
  simp only [List.mem_map, exists_exists_and_eq_and]
  rfl

/-- What is built is determined by the list. -/
theorem Builds.unique {str : Json → String} {paths : List String} {specification specification' : Kw}
    (h : Builds str paths specification) (h' : Builds str paths specification') :
    specification = specification' := by
  have hspecification := h [("fields", .str (join "," paths))] rfl rfl
  rw [h' [("fields", .str (join "," paths))] rfl rfl] at hspecification
  have hinjective : Function.Injective fun f : String × Json => (Json.str f.1, f.2) := by
    rintro ⟨k, v⟩ ⟨k', v'⟩ h
    cases h
    rfl
  exact (List.map_injective_iff.mpr hinjective (Except.ok.inj hspecification)).symm

/-- **The fields shorthand.**  The paths of what is built are the prefixes of the listed paths;
lists with the same prefixes build equal dictionaries; one list after another builds what the second
builds, merged over what the first builds. -/
theorem fieldsShorthand (str : Json → String) {paths : List String}
    (hpaths : ∀ p ∈ paths, Listable p) :
    ∃ specification, Builds str paths specification ∧
      (∀ path, path ≠ [] → ((nodeAt specification path).isSome = true ↔ Listed paths path)) ∧
      ∀ paths' specification', (∀ p ∈ paths', Listable p) → Builds str paths' specification' →
        ((∀ path, Listed paths path ↔ Listed paths' path) →
          Json.eq (.obj specification) (.obj specification') = true) ∧
        Builds str (paths ++ paths') (mergeFields specification' specification) := by
  refine ⟨_, builds_toItems str hpaths, fun path hne => ?_, fun paths' specification' hpaths' hbuilds => ?_⟩
  · rw [nodeAt_toItems_isSome, has_ofPaths_split]
    exact or_iff_right hne
  · obtain rfl := hbuilds.unique (builds_toItems str hpaths')
    constructor
    · intro hsame
      refine eq_toItems (Trie.distinct_ofPaths _) (Trie.distinct_ofPaths _) fun q => ?_
      rw [has_ofPaths_split, has_ofPaths_split, hsame]
    · rw [← toItems_merge, ← Trie.ofPaths_append, ← List.map_append]
      exact builds_toItems str fun p hp => (List.mem_append.mp hp).elim (hpaths p) (hpaths' p)

theorem listable_lines :
    ∀ p ∈ ["line_ids", "name", "line_ids.product_id.name", "line_ids.product_id"], Listable p := by
  intro p hp
  simp only [List.mem_cons, List.not_mem_nil, or_false] at hp
  rcases hp with rfl | rfl | rfl | rfl
  all_goals exact ⟨by decide, by decide +kernel, by decide, by decide +kernel⟩

/-- A leaf that gains children, and a path listed after a longer one. -/
theorem fieldsShorthand_lines :
    ∃ specification,
      Builds (fun _ => "") ["line_ids", "name", "line_ids.product_id.name", "line_ids.product_id"]
        specification ∧
      (nodeAt specification ["line_ids", "product_id"]).isSome = true := by
  obtain ⟨specification, hbuilds, hpaths, -⟩ := fieldsShorthand (fun _ => "") listable_lines
  refine ⟨specification, hbuilds, (hpaths _ (by simp)).mpr ⟨"line_ids.product_id", by simp, ?_⟩⟩
  decide +kernel

end SsiRest.Serializer
