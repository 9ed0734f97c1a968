import SsiRestApi.OrmController

/-!
# The cap on the page size

`paginate` takes the smaller of the limit a client sends and `max_page_size`.  Only an
explicit limit is compared, and only from above: the default page size passes as it is,
and so does a limit of `0` or less, which the database takes for no limit or refuses.

    the page size is capped ↔ a limit sent is positive, and without one the default
                              page size is at most the maximum             (pageCapped_iff)
-/

namespace SsiRest.OrmController

open Py Tx

/-- Both page sizes are configured as positive integers. -/
structure Configured (sizes : PageSizes) (defaultSize maxSize : Int) : Prop where
  default_eq : pageSize sizes.defaultPageSize 80 = .ok defaultSize
  max_eq : pageSize sizes.maxPageSize 1000 = .ok maxSize
  default_pos : 1 ≤ defaultSize
  max_pos : 1 ≤ maxSize

/-- The client sends an integer, or no limit. -/
def LimitSent (limit : Json) : Option Int → Prop
  | none => limit = .null
  | some n => toInt limit = .ok n

/-- The offset is an integer. -/
def OffsetSent (offset : Json) (o : Int) : Prop := toInt (offset.orElse (.int 0)) = .ok o

/-- The limit resolved is between 1 and the maximum, is the one sent when that is, and no endpoint
returns more than the maximum. -/
structure PageCapped (sizes : PageSizes) (maxSize : Int) (limit : Json) (sent : Option Int) :
    Prop where
  resolves : ∃ l, 1 ≤ l ∧ l ≤ maxSize ∧ (∀ n, sent = some n → 1 ≤ n → n ≤ maxSize → l = n) ∧
    ∀ offset o, OffsetSent offset o → paginate sizes limit offset = .ok (l, o)
  search : ∀ env model params body, env.sizes = sizes → params.get "limit" = limit →
    ormSearch env model params = .ok body → (body.ids.length : Int) ≤ maxSize
  searchRead : ∀ env model params body, env.sizes = sizes → params.get "limit" = limit →
    ormSearchRead env model params = .ok body → (body.records.length : Int) ≤ maxSize
  readGroup : ∀ env model params groups, env.sizes = sizes → params.get "limit" = limit →
    ormReadGroup env model params = .ok groups → (groups.length : Int) ≤ maxSize

/-- What the limit resolves to. -/
def resolvedLimit (defaultSize maxSize : Int) : Option Int → Int
  | none => defaultSize
  | some n => min n maxSize

variable {sizes : PageSizes} {defaultSize maxSize : Int} {limit offset : Json} {sent : Option Int}
  {o : Int}

theorem resolveLimit_eq (hlimit : LimitSent limit sent) :
    resolveLimit limit defaultSize maxSize = .ok (resolvedLimit defaultSize maxSize sent) := by
  cases sent with
  | none =>
    obtain rfl : limit = .null := hlimit
    rfl
  | some n =>
    have hlimit : toInt limit = .ok n := hlimit
    unfold resolveLimit
    split
    · cases hlimit
    · rw [hlimit]
      rfl

theorem paginate_eq (h : Configured sizes defaultSize maxSize) (hlimit : LimitSent limit sent)
    (hoffset : OffsetSent offset o) :
    paginate sizes limit offset = .ok (resolvedLimit defaultSize maxSize sent, o) := by
  unfold paginate
  rw [h.default_eq, h.max_eq, show toInt (offset.orElse (.int 0)) = .ok o from hoffset]
  simp only [bind, Except.bind, resolveLimit_eq hlimit]
  rfl

/-- A page was resolved from an integer offset. -/
theorem offsetSent_of_paginate {page : Int × Int} (h : paginate sizes limit offset = .ok page) :
    OffsetSent offset page.2 := by
  unfold paginate at h
  simp only [bind_ok_iff] at h
  obtain ⟨_, -, _, -, _, -, o, hoffset, h⟩ := h
  cases h
  exact hoffset

theorem length_window_le {α : Type} {limit offset : Int} {rows page : List α}
    (h : window limit offset rows = .ok page) (hlimit : limit ≠ 0) :
    (page.length : Int) ≤ limit := by
  unfold window at h
  split at h
  · cases h
  · split at h
    · cases h
    · cases h
      rw [List.length_take]
      omega

theorem length_serializeQuery {env : Env} {model : String} {ids : List Nat} {kwargs : Kw}
    {rows : List Serializer.Row} (h : serializeQuery env model ids kwargs = .ok rows) :
    rows.length = ids.length := by
  unfold serializeQuery at h
  cases hrun : (Serializer.serializeQuery env.str env.host env.schema env.settings kwargs model
      ids).run env.reading with
  | error e =>
    rw [hrun] at h
    cases h
  | ok rows' =>
    rw [hrun] at h
    cases h
    unfold Serializer.serializeQuery Serializer.serializeRaw at hrun
    obtain ⟨_, -, hserialized⟩ := Observe.run_bind_ok hrun
    obtain ⟨_, -, hrows⟩ := Observe.run_bind_ok hserialized
    exact (Observe.forall_of_mapM (P := fun _ => True) (fun _ _ _ => trivial) hrows).1

/-- A page whose limit is between 1 and the maximum is no longer than the maximum. -/
theorem length_page_le {α : Type} {l : Int} (hpos : 1 ≤ l) (hmax : l ≤ maxSize)
    (hpage : ∀ offset o, OffsetSent offset o → paginate sizes limit offset = .ok (l, o))
    {page : Int × Int} (h : paginate sizes limit offset = .ok page) {rows rows' : List α}
    (hrows : window page.1 page.2 rows = .ok rows') : (rows'.length : Int) ≤ maxSize := by
  have heq := hpage offset page.2 (offsetSent_of_paginate h)
  have hl : page.1 = l := congrArg Prod.fst (Except.ok.inj (h.symm.trans heq))
  rw [hl] at hrows
  exact le_trans (length_window_le hrows (by omega)) hmax

/-- The endpoints return no more than a limit between 1 and the maximum lets them. -/
theorem pageCapped_of_resolves
    (h : ∃ l, 1 ≤ l ∧ l ≤ maxSize ∧ (∀ n, sent = some n → 1 ≤ n → n ≤ maxSize → l = n) ∧
      ∀ offset o, OffsetSent offset o → paginate sizes limit offset = .ok (l, o)) :
    PageCapped sizes maxSize limit sent := by
  obtain ⟨l, hpos, hmax, hhonoured, hpage⟩ := h
  refine ⟨⟨l, hpos, hmax, hhonoured, hpage⟩, ?_, ?_, ?_⟩
  · rintro env model params body rfl rfl hbody
    unfold ormSearch at hbody
    simp only [bind_ok_iff] at hbody
    obtain ⟨target, -, domain, -, page, hpaginate, ids, hids, _, -, hbody⟩ := hbody
    cases hbody
    obtain ⟨rows, -, hrows⟩ := bind_ok_iff.mp hids
    exact length_page_le hpos hmax hpage hpaginate hrows
  · rintro env model params body rfl rfl hbody
    unfold ormSearchRead at hbody
    simp only [bind_ok_iff] at hbody
    obtain ⟨target, -, domain, -, page, hpaginate, ids, hids, records, hrecords, _, -, hbody⟩ := hbody
    cases hbody
    obtain ⟨rows, -, hrows⟩ := bind_ok_iff.mp hids
    rw [length_serializeQuery hrecords]
    exact length_page_le hpos hmax hpage hpaginate hrows
  · rintro env model params groups rfl rfl hbody
    unfold ormReadGroup at hbody
    simp only [bind_ok_iff] at hbody
    obtain ⟨target, -, domain, -, groupby, -, aggregates, -, page, hpaginate, found, hfound, _, -,
      _, -, hbody⟩ := hbody
    cases hbody
    obtain ⟨rows, -, hrows⟩ := bind_ok_iff.mp hfound
    rw [formatReadGroupRows, List.length_map]
    exact length_page_le hpos hmax hpage hpaginate hrows

/-- The page size is capped exactly when a limit sent is positive and, without one, the default
page size is at most the maximum. -/
theorem pageCapped_iff (h : Configured sizes defaultSize maxSize)
    (hlimit : LimitSent limit sent) :
    PageCapped sizes maxSize limit sent ↔
      (sent = none → defaultSize ≤ maxSize) ∧ ∀ n, sent = some n → 1 ≤ n := by
  have hpage : ∀ offset o, OffsetSent offset o →
      paginate sizes limit offset = .ok (resolvedLimit defaultSize maxSize sent, o) :=
    fun _ _ => paginate_eq h hlimit
  constructor
  · intro hcapped
    obtain ⟨l, hpos, hmax, -, hresolves⟩ := hcapped.resolves
    have hzero : OffsetSent .null 0 := rfl
    have heq := (hresolves _ _ hzero).symm.trans (hpage _ _ hzero)
    obtain rfl : l = resolvedLimit defaultSize maxSize sent := (Prod.mk.inj (Except.ok.inj heq)).1
    constructor
    · rintro rfl
      exact hmax
    · rintro n rfl
      exact le_trans hpos (min_le_left n maxSize)
  · rintro ⟨hdefault, hsent⟩
    refine pageCapped_of_resolves ⟨resolvedLimit defaultSize maxSize sent, ?_, ?_, ?_, hpage⟩
    · cases sent with
      | none => exact h.default_pos
      | some n => exact le_min (hsent n rfl) h.max_pos
    · cases sent with
      | none => exact hdefault rfl
      | some n => exact min_le_right n maxSize
    · rintro n rfl - hle
      exact min_eq_left hle

/-! ## The sizes the module is installed with -/

/-- No page size is configured, which leaves the defaults of `paginate`. -/
def unconfigured : PageSizes := ⟨none, none⟩

theorem configured_unconfigured : Configured unconfigured 80 1000 :=
  ⟨rfl, rfl, by decide, by decide⟩

/-- A limit of 50 is honoured. -/
theorem pageCapped_fifty : PageCapped unconfigured 1000 (.str "50") (some 50) :=
  (pageCapped_iff configured_unconfigured (by rfl)).mpr
    ⟨fun h => (by cases h), fun n h => (by cases h; decide)⟩

/-- A limit of 0 or -1 passes, and so does a default page size above the maximum. -/
theorem not_pageCapped :
    ¬ PageCapped unconfigured 1000 (.str "0") (some 0) ∧
      ¬ PageCapped unconfigured 1000 (.str "-1") (some (-1)) ∧
      ¬ PageCapped ⟨some "200", some "100"⟩ 100 .null none := by
  refine ⟨fun h => ?_, fun h => ?_, fun h => ?_⟩
  · obtain ⟨l, hpos, -, -, hpage⟩ := h.resolves
    cases (hpage .null 0 (by rfl)).symm.trans (show _ = .ok ((0 : Int), (0 : Int)) from by rfl)
    omega
  · obtain ⟨l, hpos, -, -, hpage⟩ := h.resolves
    cases (hpage .null 0 (by rfl)).symm.trans (show _ = .ok ((-1 : Int), (0 : Int)) from by rfl)
    omega
  · obtain ⟨l, -, hmax, -, hpage⟩ := h.resolves
    cases (hpage .null 0 (by rfl)).symm.trans (show _ = .ok ((200 : Int), (0 : Int)) from by rfl)
    omega

end SsiRest.OrmController
