import SsiRestApi.Lib.Json

/-!
# Keyword arguments in order

A call with merged parameters binds the parameters its function names; what is left, in
the order of the merge, is the function's own keyword dictionary.

    one more parameter below the body does not show in it ↔ the body has the parameter,
      ahead of all else it adds                                   (keywords_append_iff)
-/

namespace Py.Kw

/-- The items of the dictionary that keeps the first of several values of a key. -/
def items : Kw → Kw
  | [] => []
  | field :: kw => field :: (items kw).filter fun f => f.1 != field.1

/-- `**kwargs` of a function with these named parameters. -/
def keywords (named : List String) (params : Kw) : Kw :=
  params.items.filter fun f => !named.contains f.1

theorem lookup_items (kw : Kw) (key : String) : kw.items.lookup key = kw.lookup key := by
  induction kw with
  | nil => rfl
  | cons field kw ih =>
    obtain ⟨k, v⟩ := field
    by_cases h : key = k
    · subst h
      simp [items]
    · have hb : (key == k) = false := beq_false_of_ne h
      rw [items, List.lookup_cons, List.lookup_cons, hb]
      change ((items kw).filter fun f => f.1 != k).lookup key = kw.lookup key
      rw [lookup_filter_key (items kw) (fun key => key != k), if_pos (by simp [h]), ih]

theorem items_filter (p : String → Bool) (kw : Kw) :
    items (kw.filter fun f => p f.1) = kw.items.filter fun f => p f.1 := by
  induction kw with
  | nil => rfl
  | cons field kw ih =>
    by_cases h : p field.1 = true
    · simp only [items, List.filter_cons, if_pos h, ih, List.filter_filter, Bool.and_comm]
    · simp only [items, List.filter_cons, if_neg h, ih, List.filter_filter]
      refine List.filter_congr fun f _ => ?_
      -- what passes the filter is no other value of the dropped key
      cases hf : p f.1 with
      | false => rfl
      | true =>
        have hne : f.1 ≠ field.1 := fun he => h (he ▸ hf)
        simp [hne]

theorem items_append (kw new : Kw) :
    (kw ++ new).items = kw.items ++ new.items.filter fun f => (kw.lookup f.1).isNone := by
  induction kw with
  | nil => simp [items]
  | cons field kw ih =>
    rw [List.cons_append, items, items, ih, List.filter_append, List.cons_append,
      List.filter_filter]
    congr 2
    refine List.filter_congr fun f _ => ?_
    obtain ⟨k, v⟩ := field
    by_cases h : f.1 = k
    · simp [h]
    · simp [h, List.lookup_cons, beq_false_of_ne h]

/-- Two lists with the same keys have the items in common whose values they agree on. -/
theorem items_filter_congr {kw kw' : Kw} {p : String → Bool}
    (hkeys : kw.map Prod.fst = kw'.map Prod.fst)
    (hvalues : ∀ key, p key = true → kw.lookup key = kw'.lookup key) :
    (items kw).filter (fun f => p f.1) = (items kw').filter fun f => p f.1 := by
  induction kw generalizing kw' p with
  | nil =>
    rw [List.map_nil] at hkeys
    rw [List.map_eq_nil_iff.mp hkeys.symm]
  | cons field kw ih =>
    cases kw' with
    | nil => cases hkeys
    | cons field' kw' =>
      obtain ⟨k, v⟩ := field
      obtain ⟨k', v'⟩ := field'
      obtain ⟨rfl, htail⟩ := List.cons.inj hkeys
      have hrest : ((items kw).filter fun f => f.1 != k).filter (fun f => p f.1) =
          ((items kw').filter fun f => f.1 != k).filter fun f => p f.1 := by
        rw [List.filter_filter, List.filter_filter]
        refine ih (p := fun key => p key && key != k) htail fun key hkey => ?_
        obtain ⟨hp, hne⟩ := Bool.and_eq_true_iff.mp hkey
        have hb : (key == k) = false := beq_false_of_ne (bne_iff_ne.mp hne)
        have h := hvalues key hp
        rwa [List.lookup_cons, List.lookup_cons, hb] at h
      simp only [items, List.filter_cons, hrest]
      by_cases hp : p k = true
      · have hv := hvalues k hp
        rw [List.lookup_cons_self, List.lookup_cons_self] at hv
        rw [if_pos hp, if_pos hp, Option.some.inj hv]
      · rw [if_neg hp, if_neg hp]

/-! ## What a merge leaves -/

theorem lookup_keywords {named : List String} {key : String} (h : key ∉ named) (params : Kw) :
    (keywords named params).lookup key = params.lookup key := by
  unfold keywords
  rw [lookup_filter_key params.items (fun key => !named.contains key), if_pos (by simpa using h),
    lookup_items]

/-- Named parameters are no keyword arguments, whatever they are merged with. -/
theorem keywords_update_of_named {named : List String} {new : Kw}
    (h : ∀ f ∈ new, f.1 ∈ named) (kw : Kw) : keywords named (kw.update new) = keywords named kw := by
  unfold keywords
  rw [← items_filter fun key => !named.contains key, ← items_filter fun key => !named.contains key,
    update, List.filter_append]
  have hnone : ∀ key, named.contains key = false → new.lookup key = none := by
    intro key hkey
    refine List.lookup_eq_none_iff.mpr fun f hf => bne_iff_ne.mpr ?_
    rintro rfl
    rw [List.contains_iff_mem.mpr (h f hf)] at hkey
    cases hkey
  have hnew : ((new.filter fun f => (kw.lookup f.1).isNone).filter
      fun f => !named.contains f.1) = [] := by
    refine List.filter_eq_nil_iff.mpr fun f hf => ?_
    simpa using h f (List.mem_filter.mp hf).1
  rw [hnew, List.append_nil, List.filter_map]
  congr 1
  refine (List.map_congr_left fun f hf => ?_).trans (List.map_id _)
  have hkey : named.contains f.1 = false := by simpa using (List.mem_filter.mp hf).2
  rw [hnone f.1 hkey]
  rfl

/-- Naming a parameter that is not passed changes nothing. -/
theorem keywords_cons_of_lookup_none {kw : Kw} {key : String} (h : kw.lookup key = none)
    (named : List String) : keywords (key :: named) kw = keywords named kw := by
  unfold keywords
  refine List.filter_congr fun f hf => ?_
  have hne : (key == f.1) = false := by
    rw [← lookup_items] at h
    exact Bool.eq_false_iff.mpr (bne_iff_ne.mp (List.lookup_eq_none_iff.mp h f hf) ∘ beq_iff_eq.mp)
  rw [List.contains_cons, Bool.beq_comm, hne, Bool.false_or]

/-- The keyword arguments `new` adds to those of `kw`. -/
def added (named : List String) (kw new : Kw) : Kw :=
  new.filter fun f => !named.contains f.1 && (kw.lookup f.1).isNone

theorem keywords_update (named : List String) (kw new : Kw) :
    keywords named (kw.update new) =
      keywords named (kw.map fun f => (f.1, (new.lookup f.1).getD f.2)) ++
        (added named kw new).items := by
  unfold keywords added update
  rw [items_append, List.filter_append, List.filter_filter]
  congr 1
  rw [items_filter fun key => (kw.lookup key).isNone,
    items_filter fun key => !named.contains key && (kw.lookup key).isNone, List.filter_filter]
  refine List.filter_congr fun f _ => ?_
  rw [lookup_map_value kw (fun k v => (new.lookup k).getD v), Option.isNone_map]
  simp

/-- A keyword argument of its own key ends the list. -/
theorem keywords_append_singleton {named : List String} {kw : Kw} {key : String}
    (hnamed : key ∉ named) (hkey : kw.lookup key = none) (v : Json) :
    keywords named (kw ++ [(key, v)]) = keywords named kw ++ [(key, v)] := by
  have hkept : named.contains key = false := by simpa using hnamed
  unfold keywords
  rw [items_append, List.filter_append]
  simp [items, hkey, hnamed]

/-- A parameter put below `new` shows in the keyword arguments, except where `new` has it ahead of
all else it adds. -/
theorem keywords_append_iff {named : List String} {kw : Kw} {key : String} (hnamed : key ∉ named)
    (hkey : kw.lookup key = none) (new : Kw) (w : Json) :
    keywords named (kw.update new) = keywords named ((kw ++ [(key, w)]).update new) ↔
      (added named kw new).head?.map Prod.fst = some key := by
  have hadded : added named (kw ++ [(key, w)]) new =
      (added named kw new).filter fun f => f.1 != key := by
    unfold added
    rw [List.filter_filter]
    refine List.filter_congr fun f _ => ?_
    by_cases h : f.1 = key
    · simp [h, hkey, List.lookup_append]
    · simp [h, List.lookup_append, List.lookup_cons, beq_false_of_ne h]
  have hlookup : (added named kw new).lookup key = new.lookup key := by
    unfold added
    rw [lookup_filter_key new fun k => !named.contains k && (kw.lookup k).isNone,
      if_pos (by simp [hnamed, hkey])]
  rw [keywords_update, keywords_update, hadded, List.map_append, List.map_singleton,
    keywords_append_singleton hnamed (by simp [lookup_map_value kw fun k v => (new.lookup k).getD v,
      hkey]), List.append_assoc, List.append_right_inj, List.singleton_append,
    items_filter fun k => k != key]
  generalize added named kw new = rest at hlookup
  cases rest with
  | nil => simp [items]
  | cons field rest =>
    obtain ⟨k, v⟩ := field
    simp only [items, List.cons.injEq, Prod.mk.injEq, List.head?_cons, Option.map_some,
      Option.some.injEq]
    constructor
    · exact fun h => h.1.1
    · rintro rfl
      rw [List.lookup_cons_self] at hlookup
      refine ⟨⟨rfl, by rw [← hlookup]; rfl⟩, ?_⟩
      simp [List.filter_filter]

/-- Where `kw` has the parameter already, a new value for it shows unless `new` overrides both. -/
theorem keywords_assign_iff {named : List String} {kw kw' : Kw} {key : String} {v w : Json}
    (hnamed : key ∉ named) (hkeys : kw.map Prod.fst = kw'.map Prod.fst)
    (hv : kw.lookup key = some v) (hw : kw'.lookup key = some w)
    (hothers : ∀ k, k ≠ key → kw.lookup k = kw'.lookup k) (new : Kw) :
    keywords named (kw.update new) = keywords named (kw'.update new) ↔
      (new.lookup key).isSome ∨ v = w := by
  constructor
  · intro h
    have hlookup := congrArg (List.lookup key) h
    rw [lookup_keywords hnamed, lookup_keywords hnamed, lookup_update, lookup_update, hv, hw]
      at hlookup
    cases hnew : new.lookup key with
    | some _ => exact Or.inl rfl
    | none =>
      rw [hnew] at hlookup
      exact Or.inr (Option.some.inj hlookup)
  · intro h
    have hsame : ∀ k, (kw.update new).lookup k = (kw'.update new).lookup k := by
      intro k
      rw [lookup_update, lookup_update]
      by_cases hk : k = key
      · subst hk
        rw [hv, hw]
        rcases h with h | rfl
        · obtain ⟨u, hu⟩ := Option.isSome_iff_exists.mp h
          rw [hu]
          rfl
        · rfl
      · rw [hothers k hk]
    have hmerged : (kw.update new).map Prod.fst = (kw'.update new).map Prod.fst := by
      have hnone : ∀ k, (kw.lookup k).isNone = (kw'.lookup k).isNone := by
        intro k
        by_cases hk : k = key
        · rw [hk, hv, hw]
          rfl
        · rw [hothers k hk]
      simp only [update, List.map_append, List.map_map, hnone]
      exact congrArg (· ++ _) hkeys
    exact items_filter_congr (p := fun k => !named.contains k) hmerged fun k _ => hsame k

end Py.Kw
