import SsiRestApi.PageCap

/-!
# Walking through the pages of a search

A client that asks `orm_search` for one page after another, the next offset being the number of
ids it has, ends with every matching record once.  A client that goes on by the limit it sent
does so exactly when the server does not cut that limit (paging_complete).
-/

namespace SsiRest.OrmController

open Py Tx

/-! ## Pages of a list -/

section Lists

variable {α : Type}

/-- Pages of `size` records, each starting `stride` records after the one before. -/
def pagesOf (size stride : Nat) (all : List α) (pages : Nat) : List α :=
  (List.range pages).flatMap fun k => (all.drop (k * stride)).take size

/-- Pages side by side cover what they reach. -/
theorem pagesOf_self (size : Nat) (all : List α) (pages : Nat) :
    pagesOf size size all pages = all.take (pages * size) := by
  unfold pagesOf
  induction pages with
  | zero => simp
  | succ pages ih =>
    rw [List.range_succ, List.flatMap_append, ih, List.flatMap_cons, List.flatMap_nil,
      List.append_nil, Nat.succ_mul, List.take_add]

/-- Pages from the `j`-th on hold no more than there is from there on. -/
theorem length_pages_le {size stride : Nat} (h : size ≤ stride) (all : List α) (pages : Nat) :
    ∀ j, ((List.range pages).flatMap fun k => (all.drop ((j + k) * stride)).take size).length ≤
      all.length - j * stride := by
  induction pages with
  | zero =>
    intro j
    simp
  | succ pages ih =>
    intro j
    have hnext := ih (j + 1)
    have hshift : (fun k => (all.drop ((j + k.succ) * stride)).take size) =
        fun k => (all.drop ((j + 1 + k) * stride)).take size := by
      funext k
      rw [Nat.add_succ, Nat.succ_add]
    rw [List.range_succ_eq_map, List.flatMap_cons, List.flatMap_map, hshift, List.length_append,
      List.length_take, List.length_drop, Nat.add_zero]
    rw [Nat.succ_mul] at hnext
    omega

/-- Pages with gaps between them miss records unless the first one holds them all. -/
theorem pagesOf_eq_iff {size stride : Nat} (h : size < stride) {all : List α} {pages : Nat}
    (hcover : all.length ≤ pages * stride) :
    pagesOf size stride all pages = all ↔ all.length ≤ size := by
  cases pages with
  | zero =>
    have hnil : all.length = 0 := by simpa using hcover
    rw [List.eq_nil_of_length_eq_zero hnil]
    simp [pagesOf]
  | succ pages =>
    have hsplit : pagesOf size stride all (pages + 1) = all.take size ++
        (List.range pages).flatMap fun k => (all.drop ((1 + k) * stride)).take size := by
      unfold pagesOf
      rw [List.range_succ_eq_map, List.flatMap_cons, List.flatMap_map, Nat.zero_mul,
        List.drop_zero]
      simp only [Nat.succ_eq_add_one, Nat.add_comm]
    have hrest := length_pages_le (Nat.le_of_lt h) all pages 1
    rw [hsplit]
    constructor
    · intro heq
      have hlength := congrArg List.length heq
      rw [List.length_append, List.length_take] at hlength
      omega
    · intro hle
      have hnone := List.eq_nil_of_length_eq_zero (Nat.le_zero.mp (le_trans hrest (by omega)))
      rw [hnone, List.append_nil, List.take_of_length_le hle]

end Lists

/-! ## Walks -/

/-- One page after another, each from where the ids so far end, up to an empty one. -/
def follow (page : Nat → Except Exn (List Nat)) : Nat → Nat → Except Exn (List Nat)
  | 0, _ => .ok []
  | fuel + 1, offset => do
    let ids ← page offset
    if ids.isEmpty then pure []
    else do
      let rest ← follow page fuel (offset + ids.length)
      pure (ids ++ rest)

theorem follow_eq {page : Nat → Except Exn (List Nat)} {all : List Nat} {size : Nat}
    (hsize : 1 ≤ size) (hpage : ∀ o, page o = .ok ((all.drop o).take size)) :
    ∀ fuel offset, all.length < offset + fuel → follow page fuel offset = .ok (all.drop offset) := by
  intro fuel
  induction fuel with
  | zero =>
    intro offset h
    rw [List.drop_of_length_le (by omega)]
    rfl
  | succ fuel ih =>
    intro offset h
    rw [follow, hpage]
    simp only [bind, Except.bind]
    by_cases hend : all.length ≤ offset
    · rw [List.drop_of_length_le hend, List.take_nil]
      rfl
    · have hlength : ((all.drop offset).take size).length = min size (all.length - offset) := by
        rw [List.length_take, List.length_drop]
      have hne : ((all.drop offset).take size).isEmpty = false := by
        rw [List.isEmpty_eq_false_iff]
        intro hnil
        rw [hnil, List.length_nil] at hlength
        omega
      rw [hne, if_neg Bool.false_ne_true, ih _ (by omega), hlength]
      show Except.ok ((all.drop offset).take size ++ all.drop (offset + min size _)) = _
      rcases Nat.le_total size (all.length - offset) with hfull | hlast
      · rw [Nat.min_eq_left hfull, ← List.drop_drop, List.take_append_drop]
      · have hrest : all.drop (offset + (all.length - offset)) = [] :=
          List.drop_of_length_le (by omega)
        rw [Nat.min_eq_right hlast, List.take_of_length_le (by rw [List.length_drop]; exact hlast),
          hrest, List.append_nil]

/-- The page from an offset on. -/
def pageAt (env : Env) (model : String) (params : Kw) (offset : Json) : Except Exn (List Nat) :=
  (ormSearch env model (params.update [("offset", offset)])).map fun body => body.ids

/-- What the search would find without a limit. -/
structure Finds (env : Env) (model : String) (params : Kw) (all : List Nat) : Prop where
  found : ∃ target domain, resolveModel env.repr env.models model = .ok target ∧
    parseJsonParam env.loads (params.get "domain") (.arr []) = .ok domain ∧
    target.matching domain (params.get "order") = .ok all ∧
    target.searchCount domain = .ok all.length

theorem get_update_of_ne {params : Kw} {key : String} (h : key ≠ "offset") (offset : Json) :
    Kw.get (params.update [("offset", offset)]) key = params.get key := by
  unfold Kw.get
  rw [Kw.lookup_update, List.lookup_cons, beq_false_of_ne h]
  rfl

theorem get_update_offset (params : Kw) (offset : Json) :
    Kw.get (params.update [("offset", offset)]) "offset" = offset := by
  unfold Kw.get
  rw [Kw.lookup_update]
  rfl

theorem pageAt_eq {env : Env} {model : String} {params : Kw} {all : List Nat}
    {defaultSize maxSize : Int} {sent : Option Int} (h : Configured env.sizes defaultSize maxSize)
    (hlimit : LimitSent (params.get "limit") sent) (hpos : 1 ≤ resolvedLimit defaultSize maxSize sent)
    (hfinds : Finds env model params all) {offset : Json} {o : Nat} (hoffset : OffsetSent offset o) :
    pageAt env model params offset =
      .ok ((all.drop o).take (resolvedLimit defaultSize maxSize sent).toNat) := by
  obtain ⟨target, domain, htarget, hdomain, hmatching, hcount⟩ := hfinds.found
  unfold pageAt ormSearch
  rw [get_update_of_ne (show "domain" ≠ "offset" by decide),
    get_update_of_ne (show "limit" ≠ "offset" by decide),
    get_update_of_ne (show "order" ≠ "offset" by decide), get_update_offset, htarget]
  simp only [bind, Except.bind, hdomain, paginate_eq h hlimit hoffset]
  have hsearch : target.search domain (resolvedLimit defaultSize maxSize sent) o
      (params.get "order") =
        .ok ((all.drop o).take (resolvedLimit defaultSize maxSize sent).toNat) := by
    unfold Target.search window
    simp only [bind, Except.bind, hmatching]
    rw [if_neg (by omega), if_neg (by omega), if_neg (by omega), Int.toNat_natCast]
  rw [hsearch, hcount]
  rfl

/-- The pages from `0`, `n`, `2 n` and so on. -/
def strides (env : Env) (model : String) (params : Kw) (offsets : Nat → Json) (n : Nat)
    (pages : Nat) : Except Exn (List Nat) :=
  ((List.range pages).mapM fun k => pageAt env model params (offsets (k * n))).map List.flatten

theorem strides_eq {env : Env} {model : String} {params : Kw} {all : List Nat}
    {defaultSize maxSize : Int} {sent : Option Int} (h : Configured env.sizes defaultSize maxSize)
    (hlimit : LimitSent (params.get "limit") sent)
    (hpos : 1 ≤ resolvedLimit defaultSize maxSize sent) (hfinds : Finds env model params all)
    {offsets : Nat → Json} (hoffsets : ∀ o, OffsetSent (offsets o) o) (n pages : Nat) :
    strides env model params offsets n pages =
      .ok (pagesOf (resolvedLimit defaultSize maxSize sent).toNat n all pages) := by
  have hpages : ∀ ks : List Nat, ks.mapM (fun k => pageAt env model params (offsets (k * n))) =
      .ok (ks.map fun k =>
        (all.drop (k * n)).take (resolvedLimit defaultSize maxSize sent).toNat) := by
    intro ks
    induction ks with
    | nil => rfl
    | cons k ks ih =>
      rw [List.mapM_cons, pageAt_eq h hlimit hpos hfinds (hoffsets (k * n)), ih]
      rfl
  unfold strides pagesOf
  rw [hpages, List.flatMap_def]
  rfl

/-- **Pages lose nothing.**  With positive page sizes, the pages of a search, each from where the
ids so far end, are together every matching record once and in order.  Pages at multiples of the
limit sent are so exactly when that limit is at most `max_page_size`, or one page of that many
records holds them all. -/
theorem paging_complete {env : Env} {model : String} {params : Kw} {all : List Nat}
    {defaultSize maxSize : Int} (h : Configured env.sizes defaultSize maxSize)
    (hfinds : Finds env model params all) {offsets : Nat → Json}
    (hoffsets : ∀ o, OffsetSent (offsets o) o) :
    (∀ sent, LimitSent (params.get "limit") sent → (∀ n, sent = some n → 1 ≤ n) →
      ∀ fuel, all.length < fuel →
        follow (fun o => pageAt env model params (offsets o)) fuel 0 = .ok all) ∧
    ∀ n : Nat, LimitSent (params.get "limit") (some n) → 1 ≤ n →
      ∀ pages, all.length ≤ pages * n →
        (strides env model params offsets n pages = .ok all ↔
          (n : Int) ≤ maxSize ∨ (all.length : Int) ≤ maxSize) := by
  have hdefault := h.default_pos
  have hmax := h.max_pos
  constructor
  · intro sent hlimit hsent fuel hfuel
    have hpos : 1 ≤ resolvedLimit defaultSize maxSize sent := by
      cases sent with
      | none => exact hdefault
      | some n =>
        have hn := hsent n rfl
        show 1 ≤ min n maxSize
        omega
    have hpage := fun o => pageAt_eq h hlimit hpos hfinds (hoffsets o)
    rw [follow_eq (by omega) hpage fuel 0 (by omega), List.drop_zero]
  · intro n hlimit hn pages hcover
    have hpos : 1 ≤ resolvedLimit defaultSize maxSize (some (n : Int)) := by
      show 1 ≤ min (n : Int) maxSize
      omega
    rw [strides_eq h hlimit hpos hfinds hoffsets, Except.ok.injEq]
    dsimp only [resolvedLimit]
    by_cases hcut : (n : Int) ≤ maxSize
    · have hsize : (min (n : Int) maxSize).toNat = n := by omega
      rw [hsize, pagesOf_self, List.take_of_length_le hcover]
      exact iff_of_true rfl (Or.inl hcut)
    · have hlt : (min (n : Int) maxSize).toNat < n := by omega
      rw [pagesOf_eq_iff hlt hcover]
      omega

/-! ## Three notes in pages of two -/

/-- Every search finds notes 4, 7 and 9, in this order. -/
def threeNotes : Env where
  sizes := ⟨none, some "2"⟩
  models model := if model = "note" then
      some ⟨fun _ _ => .ok [4, 7, 9], fun _ => .ok 3, fun _ _ _ _ => .ok []⟩
    else none
  loads _ := .error ""
  repr name := "'" ++ name ++ "'"
  str _ := ""
  host := ⟨fun _ => "", fun value _ => value, fun value _ => value⟩
  schema :=
    { fields := fun _ _ => none
      readable := fun _ _ => true
      currency_many2one := fun _ _ _ _ h => nomatch h
      rounding_readable := rfl }
  settings := ⟨none, fun _ => 2, fun _ _ => []⟩
  reading :=
    { read := fun _ _ _ => .ok (.json .null)
      displayName := fun _ _ => .ok "Note"
      read_readable := fun _ _ _ _ _ h => nomatch h
      displayName_readable := fun _ _ _ h => nomatch h }

theorem paging_complete_threeNotes :
    follow (fun o => pageAt threeNotes "note" [("limit", .int 3)] (.int o)) 4 0 = .ok [4, 7, 9] ∧
      strides threeNotes "note" [("limit", .int 3)] (fun o => .int o) 3 1 ≠ .ok [4, 7, 9] := by
  have hconfigured : Configured threeNotes.sizes 80 2 :=
    ⟨rfl, rfl, by decide, by decide⟩
  have hfinds : Finds threeNotes "note" [("limit", .int 3)] [4, 7, 9] :=
    ⟨_, .arr [], rfl, rfl, rfl, rfl⟩
  have hoffsets : ∀ o : Nat, OffsetSent (.int o) o := fun o => by cases o <;> rfl
  obtain ⟨hfollow, hstrides⟩ := paging_complete hconfigured hfinds hoffsets
  refine ⟨hfollow (some 3) rfl (fun n h => by cases h; decide) 4 (by decide), ?_⟩
  rw [ne_eq, hstrides 3 rfl (by decide) 1 (by decide)]
  decide

end SsiRest.OrmController
