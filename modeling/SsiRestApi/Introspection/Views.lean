import SsiRestApi.Introspection.Endpoints

/-!
# What introspection shows

    the listing, the pages of a model and its rights tell one story          (coherent)
    two environments answer every question about models alike ↔ they have the same
      models, the same rights and the same fields of readable models        (shows_iff)
-/

namespace SsiRest.Introspection

open Py Acl Serializer

/-! ## The registry -/

/-- In a dictionary a key has the value it is listed with. -/
theorem lookup_eq_some_iff_mem {α : Type} {l : List (String × α)} (h : (l.map Prod.fst).Nodup)
    {key : String} {v : α} : l.lookup key = some v ↔ (key, v) ∈ l := by
  rw [List.lookup_eq_some_iff]
  constructor
  · rintro ⟨before, after, rfl, -⟩
    simp
  · intro hin
    obtain ⟨before, after, rfl⟩ := List.append_of_mem hin
    refine ⟨before, after, rfl, fun p hp => ?_⟩
    rw [List.map_append, List.map_cons, List.nodup_append] at h
    have hne := h.2.2 p.1 (List.mem_map.mpr ⟨p, hp, rfl⟩) key List.mem_cons_self
    simpa using fun he => hne he.symm

section

variable {env : Env}

theorem mem_listing {model description : String} :
    (model, description) ∈ listing env ↔
      (∃ cls, env.lookup model = some cls ∧ cls.description = description) ∧
        startsWith model "mixin." = false ∧ env.check model .read = true := by
  unfold listing Env.lookup
  simp only [lookup_eq_some_iff_mem env.nodup_registry, List.mem_map, List.mem_filter,
    List.mem_mergeSort, Bool.and_eq_true, Bool.not_eq_true', Prod.mk.injEq, Prod.exists]
  constructor
  · rintro ⟨_, cls, ⟨hin, hmixin, hcheck⟩, rfl, rfl⟩
    exact ⟨⟨cls, hin, rfl⟩, hmixin, hcheck⟩
  · rintro ⟨⟨cls, hin, rfl⟩, hmixin, hcheck⟩
    exact ⟨model, cls, ⟨hin, hmixin, hcheck⟩, rfl, rfl⟩

/-- The listing is in order, and no model is listed twice. -/
theorem pairwise_listing (env : Env) : ((listing env).map Prod.fst).Pairwise (· < ·) := by
  have hsorted : (env.registry.mergeSort fun a b => decide (a.1 ≤ b.1)).Pairwise
      fun a b => a.1 ≤ b.1 := by
    have htrans : ∀ a b c : String × ModelClass, decide (a.1 ≤ b.1) = true →
        decide (b.1 ≤ c.1) = true → decide (a.1 ≤ c.1) = true := fun a b c hab hbc =>
      decide_eq_true (le_trans (of_decide_eq_true hab) (of_decide_eq_true hbc))
    have htotal : ∀ a b : String × ModelClass,
        (decide (a.1 ≤ b.1) || decide (b.1 ≤ a.1)) = true := fun a b => by
      simpa using le_total a.1 b.1
    exact (List.pairwise_mergeSort htrans htotal env.registry).imp of_decide_eq_true
  have hnodup : ((env.registry.mergeSort fun a b => decide (a.1 ≤ b.1)).map Prod.fst).Nodup :=
    ((List.mergeSort_perm env.registry _).map Prod.fst).nodup_iff.mpr env.nodup_registry
  have hstrict : (env.registry.mergeSort fun a b => decide (a.1 ≤ b.1)).Pairwise
      fun a b => a.1 < b.1 :=
    (hsorted.and (List.pairwise_map.mp hnodup)).imp fun h => lt_of_le_of_ne h.1 h.2
  unfold listing
  rw [List.map_map, List.pairwise_map]
  exact hstrict.filter _

/-! ## One gate for every page of a model -/

variable {repr : Json → String}

/-- The page of a model opens if the model is there and the caller may read it. -/
theorem resolveReadableModel_str {model : String} (hmodel : model ≠ "") :
    resolveReadableModel repr env (.str model) =
      match env.lookup model with
      | none => .error (unknownModel repr (.str model))
      | some target =>
        if env.check model .read then .ok (model, target)
        else .error (.userError .accessError 403 model) := by
  have htruthy : (Json.str model).truthy = true := by simpa using hmodel
  unfold resolveReadableModel Env.checkAccess
  simp only [htruthy, Bool.not_true, Bool.false_eq_true, if_false]
  cases env.lookup model with
  | none => rfl
  | some target => cases env.check model .read <;> rfl

/-- The caller may read the model. -/
def Env.Reads (env : Env) (model : String) (cls : ModelClass) : Prop :=
  env.lookup model = some cls ∧ env.check model .read = true

variable (repr) in
theorem resolveReadableModel_ok_iff {model : String} (hmodel : model ≠ "") {name : String}
    {cls : ModelClass} :
    resolveReadableModel repr env (.str model) = .ok (name, cls) ↔
      name = model ∧ env.Reads model cls := by
  rw [resolveReadableModel_str hmodel]
  unfold Env.Reads
  cases env.lookup model with
  | none => simp
  | some target =>
    cases env.check model .read with
    | true => simp [eq_comm]
    | false => simp

variable (repr env) in
/-- A page answers what it makes of the model, or fails as every other page of it. -/
theorem page_eq {α : Type} {model : String} (hmodel : model ≠ "")
    (page : String × ModelClass → Except Exn α) :
    (∃ cls, env.Reads model cls ∧
      (resolveReadableModel repr env (.str model) >>= page) = page (model, cls)) ∨
    ∃ e, (∀ cls, ¬ env.Reads model cls) ∧ resolveReadableModel repr env (.str model) = .error e ∧
      (resolveReadableModel repr env (.str model) >>= page) = .error e := by
  cases hresolve : resolveReadableModel repr env (.str model) with
  | ok target =>
    obtain ⟨name, cls⟩ := target
    obtain ⟨rfl, hreads⟩ := (resolveReadableModel_ok_iff repr hmodel).mp hresolve
    exact Or.inl ⟨cls, hreads, rfl⟩
  | error e =>
    refine Or.inr ⟨e, fun cls hreads => ?_, rfl, rfl⟩
    cases hresolve.symm.trans ((resolveReadableModel_ok_iff repr hmodel).mpr ⟨rfl, hreads⟩)

end

/-- Naming fields asks for those of them that are there. -/
theorem fieldsGet_named (cls : ModelClass) (user : User) {names : List String} (hnames : names ≠ []) :
    cls.fieldsGet user names = (cls.fieldsGet user []).filter fun f => names.contains f.1 := by
  have hempty : names.isEmpty = false := by simpa using hnames
  unfold ModelClass.fieldsGet
  rw [List.filter_map, List.filter_filter]
  congr 1
  refine List.filter_congr fun f _ => ?_
  simp [hempty]

theorem fieldNames_str {names : String} (hnames : names ≠ "") :
    fieldNames (.str names) = .ok ((splitOn ',' names).map strip) := by
  have htruthy : (Json.str names).truthy = true := by simpa using hnames
  unfold fieldNames
  simp only [htruthy, Bool.not_true, Bool.false_eq_true, if_false]

/-- The description of a field as the page of the fields gives it. -/
def describe (f : String × Kw) : String × Out := (f.1, .value (.json (.obj f.2)))

/-- The listing, the pages of a model and the rights of the caller tell one story. -/
structure Coherent (repr : Json → String) (env : Env) : Prop where
  sorted : ((listing env).map Prod.fst).Pairwise (· < ·)
  listed : ∀ model description, model ≠ "" → ((model, description) ∈ listing env ↔
    startsWith model "mixin." = false ∧ introspectionModelDetail repr env model =
      .ok (.record [("model", text model), ("name", text description)]))
  /-- A model that is there opens exactly if its rights say so. -/
  rights : ∀ model, model ≠ "" → ((∃ page, introspectionModelDetail repr env model = .ok page) ↔
    (env.lookup model).isSome = true ∧ ∃ rest, introspectionAccessRights env (.str model) =
      .ok (.record (("read", .value (.json (.bool true))) :: rest)))
  /-- The pages of a model fail alike. -/
  failure : ∀ model e, introspectionModelDetail repr env model = .error e →
    introspectionModelFields repr env model = .error e ∧
    (∀ fields, introspectionAccessFields repr env (.str model) fields = .error e) ∧
    ∀ id, introspectionRecordMetadata repr env model id = .error e
  /-- Otherwise both pages of fields are about the same ones, and a field is writable if the model
  is and its description does not say otherwise. -/
  fields : ∀ model page, introspectionModelDetail repr env model = .ok page →
    ∃ descriptions : List (String × Kw),
    introspectionModelFields repr env model = .ok (.record (descriptions.map describe)) ∧
    introspectionAccessFields repr env (.str model) .null =
      .ok (.record (descriptions.map fun f => (f.1, fieldAccess (env.check model .write) f.2))) ∧
    ∀ names, names ≠ "" → introspectionAccessFields repr env (.str model) (.str names) =
      .ok (.record ((descriptions.filter fun f =>
        ((splitOn ',' names).map strip).contains f.1).map fun f =>
          (f.1, fieldAccess (env.check model .write) f.2)))

variable {repr : Json → String} {env : Env}

theorem detail_ok_iff {model : String} (hmodel : model ≠ "") {page : Out} :
    introspectionModelDetail repr env model = .ok page ↔ ∃ cls, env.Reads model cls ∧
      page = .record [("model", text model), ("name", text cls.description)] := by
  unfold introspectionModelDetail
  rcases page_eq env repr hmodel fun target =>
    (pure (.record [("model", text model), ("name", text target.2.description)]) : Except Exn Out)
    with ⟨cls, hreads, heq⟩ | ⟨e, hnone, -, heq⟩
  · rw [heq]
    constructor
    · intro h
      cases h
      exact ⟨cls, hreads, rfl⟩
    · rintro ⟨cls', hreads', rfl⟩
      obtain rfl := Option.some.inj (hreads.1.symm.trans hreads'.1)
      rfl
  · rw [heq]
    refine iff_of_false (fun h => by cases h) ?_
    rintro ⟨cls, hreads, -⟩
    exact hnone cls hreads

/-- **Coherence.**  Whatever the registry and the access list, every endpoint about models agrees
with the others on which models and fields the caller may read and write. -/
theorem coherent (repr : Json → String) (env : Env) : Coherent repr env where
  sorted := pairwise_listing env
  listed model description hmodel := by
    rw [mem_listing, detail_ok_iff hmodel, and_left_comm]
    refine and_congr_right fun _ => ?_
    constructor
    · rintro ⟨⟨cls, hlookup, rfl⟩, hcheck⟩
      exact ⟨cls, ⟨hlookup, hcheck⟩, rfl⟩
    · rintro ⟨cls, ⟨hlookup, hcheck⟩, hpage⟩
      simp only [text, Out.record.injEq, List.cons.injEq, Prod.mk.injEq, Out.value.injEq,
        Value.json.injEq, Json.str.injEq, true_and, and_true] at hpage
      exact ⟨⟨cls, hlookup, hpage.symm⟩, hcheck⟩
  rights model hmodel := by
    have htruthy : (Json.str model).truthy = true := by simpa using hmodel
    have hrights : introspectionAccessRights env (.str model) = .ok (.record
        (modes.map fun mode => (mode.1, .value (.json (.bool (env.check model mode.2)))))) := by
      simp [introspectionAccessRights, htruthy]
    simp only [detail_ok_iff hmodel, hrights]
    unfold modes Env.Reads
    constructor
    · rintro ⟨_, cls, ⟨hlookup, hcheck⟩, -⟩
      exact ⟨by rw [hlookup]; rfl, _, by rw [List.map_cons, hcheck]⟩
    · rintro ⟨hsome, rest, hpage⟩
      obtain ⟨cls, hlookup⟩ := Option.isSome_iff_exists.mp hsome
      simp only [List.map_cons, Except.ok.injEq, Out.record.injEq, List.cons.injEq, Prod.mk.injEq,
        Out.value.injEq, Value.json.injEq, Json.bool.injEq, true_and] at hpage
      exact ⟨_, cls, ⟨hlookup, hpage.1⟩, rfl⟩
  failure model e he := by
    have hresolve : resolveReadableModel repr env (.str model) = .error e := by
      unfold introspectionModelDetail at he
      cases hresolve : resolveReadableModel repr env (.str model) with
      | error e' =>
        rw [hresolve] at he
        cases he
        rfl
      | ok target =>
        rw [hresolve] at he
        cases he
    unfold introspectionModelFields introspectionAccessFields introspectionRecordMetadata
    rw [hresolve]
    exact ⟨rfl, fun _ => rfl, fun _ => rfl⟩
  fields model page hpage := by
    have hmodel : model ≠ "" := by
      rintro rfl
      cases hpage
    obtain ⟨cls, hreads, -⟩ := (detail_ok_iff hmodel).mp hpage
    have hresolve : resolveReadableModel repr env (.str model) = .ok (model, cls) :=
      (resolveReadableModel_ok_iff repr hmodel).mpr ⟨rfl, hreads⟩
    refine ⟨cls.fieldsGet env.user [], ?_, ?_, fun names hnames => ?_⟩
    · unfold introspectionModelFields
      rw [hresolve]
      rfl
    · unfold introspectionAccessFields
      rw [hresolve]
      rfl
    · unfold introspectionAccessFields
      rw [hresolve, fieldNames_str hnames]
      have hsplit : (splitOn ',' names).map strip ≠ [] := by
        simpa using splitOn_ne_nil ',' names
      simp only [bind, Except.bind, fieldsGet_named cls env.user hsplit]
      rfl

/-! ## What the questions about models show -/

/-- The questions about models, fields and rights. -/
def Request.aboutModels : Request → Bool
  | models | modelDetail _ | modelFields _ | accessRights _ | accessFields _ _ => true
  | _ => false

/-- The same models are there, the caller has the same rights on any, and those the caller may
read have the same description and the same fields that the caller may read. -/
structure SeesAlike (env env' : Env) : Prop where
  known : ∀ model, model ≠ "" → (env.lookup model).isSome = (env'.lookup model).isSome
  rights : ∀ model mode, model ≠ "" → env.check model mode = env'.check model mode
  readable : ∀ model cls cls', env.Reads model cls → env'.lookup model = some cls' →
    cls.description = cls'.description ∧ cls.fieldsGet env.user [] = cls'.fieldsGet env'.user []

variable {env' : Env}

theorem Env.ne_empty_of_lookup {model : String} {cls : ModelClass}
    (h : env.lookup model = some cls) : model ≠ "" :=
  env.named_registry _ ((lookup_eq_some_iff_mem env.nodup_registry).mp h)

theorem SeesAlike.reads (h : SeesAlike env env') {model : String} {cls : ModelClass}
    (hreads : env.Reads model cls) : ∃ cls', env'.Reads model cls' ∧
      cls.description = cls'.description ∧ cls.fieldsGet env.user [] = cls'.fieldsGet env'.user [] := by
  have hmodel := Env.ne_empty_of_lookup hreads.1
  have hsome : (env'.lookup model).isSome = true := by
    rw [← h.known model hmodel, hreads.1]
    rfl
  obtain ⟨cls', hlookup⟩ := Option.isSome_iff_exists.mp hsome
  exact ⟨cls', ⟨hlookup, (h.rights model .read hmodel).symm.trans hreads.2⟩,
    h.readable model cls cls' hreads hlookup⟩

theorem SeesAlike.symm (h : SeesAlike env env') : SeesAlike env' env where
  known model hmodel := (h.known model hmodel).symm
  rights model mode hmodel := (h.rights model mode hmodel).symm
  readable model cls' cls hreads hlookup := by
    have hmodel := Env.ne_empty_of_lookup hlookup
    obtain ⟨hdescription, hfields⟩ := h.readable model cls cls'
      ⟨hlookup, (h.rights model .read hmodel).trans hreads.2⟩ hreads.1
    exact ⟨hdescription.symm, hfields.symm⟩

/-- Two sorted listings of the same models are the same. -/
theorem SeesAlike.listing_eq (h : SeesAlike env env') : listing env = listing env' := by
  have hsubset : ∀ {env env' : Env}, SeesAlike env env' → ∀ m ∈ listing env, m ∈ listing env' := by
    rintro env env' h ⟨model, description⟩ hm
    obtain ⟨⟨cls, hlookup, rfl⟩, hmixin, hcheck⟩ := mem_listing.mp hm
    obtain ⟨cls', hreads', hdescription, -⟩ := h.reads ⟨hlookup, hcheck⟩
    exact mem_listing.mpr ⟨⟨cls', hreads'.1, hdescription.symm⟩, hmixin, hreads'.2⟩
  have hsorted : ∀ env : Env, (listing env).Pairwise fun a b => a.1 < b.1 :=
    fun env => List.pairwise_map.mp (pairwise_listing env)
  have hnodup : ∀ env : Env, (listing env).Nodup := fun env =>
    List.Nodup.of_map Prod.fst ((pairwise_listing env).imp ne_of_lt)
  refine List.Perm.eq_of_pairwise (fun a b _ _ hab hba => absurd hba (lt_asymm hab)) (hsorted env)
    (hsorted env') ?_
  exact (List.perm_ext_iff_of_nodup (hnodup env) (hnodup env')).mpr fun m =>
    ⟨hsubset h m, hsubset h.symm m⟩

variable (repr) in
/-- A model is resolved alike: to classes of which the caller sees the same, or to one error. -/
theorem SeesAlike.resolve (h : SeesAlike env env') (model : Json) :
    (∃ e, resolveReadableModel repr env model = .error e ∧
      resolveReadableModel repr env' model = .error e) ∨
    ∃ name cls cls', name ≠ "" ∧ resolveReadableModel repr env model = .ok (name, cls) ∧
      resolveReadableModel repr env' model = .ok (name, cls') ∧
      cls.description = cls'.description ∧
      cls.fieldsGet env.user [] = cls'.fieldsGet env'.user [] := by
  cases model with
  | str name =>
    by_cases hname : name = ""
    · subst hname
      exact Or.inl ⟨_, rfl, rfl⟩
    rw [resolveReadableModel_str hname, resolveReadableModel_str hname, ← h.rights name .read hname]
    have hknown := h.known name hname
    cases hlookup : env.lookup name with
    | none =>
      have hnone : env'.lookup name = none := by simpa [hlookup] using hknown.symm
      rw [hnone]
      exact Or.inl ⟨_, rfl, rfl⟩
    | some cls =>
      rw [hlookup] at hknown
      obtain ⟨cls', hlookup'⟩ := Option.isSome_iff_exists.mp hknown.symm
      rw [hlookup']
      cases hcheck : env.check name .read with
      | false => exact Or.inl ⟨_, rfl, rfl⟩
      | true =>
        exact Or.inr ⟨name, cls, cls', hname, rfl, rfl, h.readable name cls cls' ⟨hlookup, hcheck⟩ hlookup'⟩
  | null => exact Or.inl ⟨_, rfl, rfl⟩
  | arr items => cases items <;> exact Or.inl ⟨_, rfl, rfl⟩
  | obj fields => cases fields <;> exact Or.inl ⟨_, rfl, rfl⟩
  | bool _ | int _ | float _ | foreign _ =>
    unfold resolveReadableModel
    split
    · exact Or.inl ⟨_, rfl, rfl⟩
    · exact Or.inl ⟨_, rfl, rfl⟩

/-- **What introspection shows.**  The questions about models have the same answers in two
environments exactly when the caller has the same models and rights there, and sees the same of the
models that the caller may read. -/
theorem shows_iff (repr : Json → String) (env env' : Env) :
    (∀ q : Request, q.aboutModels = true → respond repr env q = respond repr env' q) ↔
      SeesAlike env env' := by
  constructor
  · intro h
    have hdetail : ∀ model, introspectionModelDetail repr env model =
        introspectionModelDetail repr env' model := fun model => h (.modelDetail model) rfl
    have hrights : ∀ model mode, model ≠ "" → env.check model mode = env'.check model mode := by
      intro model mode hmodel
      have htruthy : (Json.str model).truthy = true := by simpa using hmodel
      have heq := h (.accessRights (.str model)) rfl
      simp only [respond, introspectionAccessRights, htruthy, Bool.not_true, Bool.false_eq_true,
        if_false, modes, List.map_cons, List.map_nil, Except.ok.injEq, Out.record.injEq,
        List.cons.injEq, Prod.mk.injEq, Out.value.injEq, Value.json.injEq, Json.bool.injEq,
        true_and, and_true] at heq
      obtain ⟨hread, hwrite, hcreate, hunlink⟩ := heq
      cases mode
      · exact hread
      · exact hwrite
      · exact hcreate
      · exact hunlink
    refine ⟨fun model hmodel => ?_, hrights, fun model cls cls' hreads hlookup' => ?_⟩
    · -- a model that is not there is no error of access
      have heq := hdetail model
      simp only [introspectionModelDetail, resolveReadableModel_str hmodel, ← hrights model .read
        hmodel] at heq
      cases hlookup : env.lookup model with
      | none =>
        cases hlookup' : env'.lookup model with
        | none => rfl
        | some cls' =>
          rw [hlookup, hlookup'] at heq
          cases hcheck : env.check model .read <;> rw [hcheck] at heq <;> cases heq
      | some cls =>
        cases hlookup' : env'.lookup model with
        | none =>
          rw [hlookup, hlookup'] at heq
          cases hcheck : env.check model .read <;> rw [hcheck] at heq <;> cases heq
        | some cls' => rfl
    · have hmodel := Env.ne_empty_of_lookup hlookup'
      have hreads' : env'.Reads model cls' :=
        ⟨hlookup', (hrights model .read hmodel).symm.trans hreads.2⟩
      have hresolve := (resolveReadableModel_ok_iff repr hmodel).mpr ⟨rfl, hreads⟩
      have hresolve' := (resolveReadableModel_ok_iff repr hmodel).mpr ⟨rfl, hreads'⟩
      constructor
      · have heq := hdetail model
        unfold introspectionModelDetail at heq
        rw [hresolve, hresolve'] at heq
        simpa [bind, Except.bind, pure, Except.pure, text] using heq
      · have heq := h (.modelFields model) rfl
        simp only [respond] at heq
        unfold introspectionModelFields at heq
        rw [hresolve, hresolve'] at heq
        simp only [bind, Except.bind, pure, Except.pure, Except.ok.injEq, Out.record.injEq] at heq
        change (cls.fieldsGet env.user []).map describe =
          (cls'.fieldsGet env'.user []).map describe at heq
        refine (List.map_injective_iff.mpr ?_) heq
        rintro ⟨name, description⟩ ⟨name', description'⟩ hdescribe
        simpa [describe] using hdescribe
  · intro h q hq
    cases q with
    | models =>
      simp only [respond]
      unfold introspectionModels
      rw [h.listing_eq]
    | accessRights model =>
      simp only [respond]
      unfold introspectionAccessRights
      split
      · rfl
      · next htruthy =>
        cases model with
        | str name =>
          have hname : name ≠ "" := by simpa using htruthy
          simp only [h.rights name _ hname]
        | _ => rfl
    | modelDetail model =>
      simp only [respond]
      unfold introspectionModelDetail
      rcases h.resolve repr (.str model) with ⟨e, he, he'⟩ |
        ⟨name, cls, cls', -, hok, hok', hdescription, -⟩
      · rw [he, he']
      · rw [hok, hok']
        simp only [bind, Except.bind, hdescription]
    | modelFields model =>
      simp only [respond]
      unfold introspectionModelFields
      rcases h.resolve repr (.str model) with ⟨e, he, he'⟩ |
        ⟨name, cls, cls', -, hok, hok', -, hfields⟩
      · rw [he, he']
        rfl
      · rw [hok, hok']
        simp only [bind, Except.bind, hfields]
    | accessFields model fields =>
      simp only [respond]
      unfold introspectionAccessFields
      rcases h.resolve repr model with ⟨e, he, he'⟩ |
        ⟨name, cls, cls', hname, hok, hok', -, hfields⟩
      · rw [he, he']
        rfl
      · rw [hok, hok']
        cases fieldNames fields with
        | error e => rfl
        | ok names =>
          have hnamed : cls.fieldsGet env.user names = cls'.fieldsGet env'.user names := by
            by_cases hnames : names = []
            · rw [hnames, hfields]
            · rw [fieldsGet_named cls env.user hnames, fieldsGet_named cls' env'.user hnames, hfields]
          simp only [bind, Except.bind, hnamed, h.rights name .write hname]
    | _ => cases hq

end SsiRest.Introspection
