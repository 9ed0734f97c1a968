import SsiRestApi.Lib.UrlTemplate
import SsiRestApi.RoutePattern
import SsiRestApi.Routes

/-!
# Which routes answer a path

The router matches a path against the pattern of a rule by the converters of its
placeholders; with `strict_slashes=False` a slash may follow.

    no path has two routes, patterns or arguments ↔ the method is not `OPTIONS`
                                                               (one_candidate_iff)
-/

namespace SsiRest

open Py UrlTemplate

/-- What the converter of a placeholder makes of a text, for the converters in use. -/
def Placeholder.takes (p : Placeholder) (text : List Char) : Option Json :=
  match p.converter.getD "default" with
  | "default" | "string" =>
    if text ≠ [] ∧ '/' ∉ text then some (.str (String.ofList text)) else none
  | "int" =>
    if text ≠ [] ∧ text.length ≤ 4300 ∧ text.all isDecimal then some (.int (ofDecimals text))
    else none
  | "path" =>
    if text ≠ [] ∧ text.head? ≠ some '/' then some (.str (String.ofList text)) else none
  | _ => none

/-- The converter takes slashes. -/
def Placeholder.isPath (p : Placeholder) : Bool := p.converter == some "path"

def endsInPath (items : List (Char ⊕ Placeholder)) : Bool :=
  match items.getLast? with
  | some (.inr p) => p.isPath
  | _ => false

/-- The path matches the pattern, with what the placeholders take. -/
def Pattern.Accepts (p : Pattern) (path : List Char) (args : List (Placeholder × Json)) : Prop :=
  Fills Placeholder.takes p.items path args ∨
    endsInPath p.items = false ∧ Fills Placeholder.takes (p.items ++ [.inl '/']) path args

/-- A pattern of a route, with what its placeholders take. -/
@[ext] structure Candidate where
  route : RestRoute
  pattern : Pattern
  args : List (Placeholder × Json)

/-- The arguments of the path. -/
def Candidate.kw (c : Candidate) : Kw := c.args.map fun a => (a.1.name, a.2)

/-- The router may choose the route for the request. -/
structure Candidate.Answers (c : Candidate) (method path : String) : Prop where
  declared : c.route ∈ Routes.restRoutes
  serves : c.route.serves method = true
  registered : ∃ patterns, c.route.expandedRoutes = .ok patterns ∧ c.pattern.text ∈ patterns
  accepts : c.pattern.Accepts path.toList c.args

/-! ## Segments -/

/-- The segments of a pattern. -/
def segmentsOf (text : String) : List (Segment Placeholder) :=
  segments Placeholder.isPath (Scan.items matchParam 0 text.toList)

/-- The segments of the paths a pattern accepts. -/
def spellings (text : String) : List (List (Segment Placeholder)) :=
  if endsInPath (Scan.items matchParam 0 text.toList) then [segmentsOf text]
  else [segmentsOf text, segmentsOf text ++ [.text []]]

/-- Only a last placeholder takes slashes. -/
def slashesLast : List (Segment Placeholder) → Bool
  | [] => true
  | .text cs :: l => !cs.contains '/' && slashesLast l
  | .hole p :: l => !p.isPath && slashesLast l
  | .rest _ :: l => l.isEmpty

/-- The pattern is made of segments. -/
def isSegmented (text : String) : Bool :=
  decide (slashed (segmentsOf text) = Scan.items matchParam 0 text.toList) &&
    (spellings text).all slashesLast

theorem Placeholder.slash_notMem {p : Placeholder} (hp : p.isPath = false) {text : List Char}
    {v : Json} (h : p.takes text = some v) : '/' ∉ text := by
  have hdigits : isDecimal '/' = false := by decide +kernel
  unfold takes at h
  split at h
  case h_1 | h_2 =>
    split at h
    · next htext => exact htext.2
    · cases h
  case h_3 =>
    split at h
    · next htext =>
      intro hslash
      cases hdigits.symm.trans (List.all_eq_true.mp htext.2.2 _ hslash)
    · cases h
  case h_4 hpath =>
    unfold isPath at hp
    cases hconverter : p.converter with
    | none =>
      rw [hconverter] at hpath
      exact absurd hpath (by decide)
    | some converter =>
      rw [hconverter] at hp hpath
      obtain rfl : converter = "path" := hpath
      cases hp
  case h_5 => cases h

theorem Placeholder.takes_string {p : Placeholder} (hp : p.converter = some "string")
    {text : List Char} {v : Json} (h : p.takes text = some v) :
    '/' ∉ text ∧ v = .str (String.ofList text) := by
  have htakes : p.takes text =
      if text ≠ [] ∧ '/' ∉ text then some (.str (String.ofList text)) else none := by
    unfold takes
    rw [hp]
    rfl
  rw [htakes] at h
  split at h
  · next htext => exact ⟨htext.2, (Option.some.inj h).symm⟩
  · cases h

theorem segmented_of_slashesLast {l : List (Segment Placeholder)} (h : slashesLast l = true) :
    Segmented Placeholder.takes l := by
  induction l with
  | nil => trivial
  | cons s l ih =>
    cases s with
    | text cs =>
      simp only [slashesLast, Bool.and_eq_true, Bool.not_eq_true'] at h
      exact ⟨by simpa using h.1, ih h.2⟩
    | hole p =>
      simp only [slashesLast, Bool.and_eq_true, Bool.not_eq_true'] at h
      exact ⟨fun t v => Placeholder.slash_notMem h.1, ih h.2⟩
    | rest p => exact List.isEmpty_iff.mp h

theorem Pattern.accepts_iff {p : Pattern} (h : isSegmented p.text = true) {path : List Char}
    {args : List (Placeholder × Json)} :
    p.Accepts path args ↔ ∃ l ∈ spellings p.text, Fills Placeholder.takes (slashed l) path args := by
  unfold isSegmented at h
  rw [Bool.and_eq_true, decide_eq_true_eq, p.items_text] at h
  have hslash : slashed (segmentsOf p.text ++ [.text []]) = p.items ++ [.inl '/'] := by
    rw [slashed_append, h.1]
    rfl
  unfold Pattern.Accepts spellings
  rw [p.items_text]
  cases endsInPath p.items with
  | true => simp [h.1]
  | false => simp [h.1, hslash]

/-! ## The routes of the repository -/

/-- The patterns of a route. -/
def RestRoute.patterns (r : RestRoute) : List String :=
  r.versions.flatMap fun version => r.paths.map (versionedPath version)

theorem RestRoute.patterns_eq {r : RestRoute} {patterns : List String}
    (h : r.expandedRoutes = .ok patterns) : r.patterns = patterns := by
  unfold expandedRoutes at h
  split at h
  · cases h
  · exact Except.ok.inj h

/-- Two texts are the patterns of paths that have no path in common. -/
def apartPatterns (text text' : String) : Bool :=
  (spellings text).all fun l => (spellings text').all fun l' => apart Placeholder.takes l l'

/-- No method but `OPTIONS` has both routes. -/
def apartMethods (r r' : RestRoute) : Bool :=
  match ruleMethods r.methods, ruleMethods r'.methods with
  | some methods, some methods' => methods.all fun m => m == "OPTIONS" || !methods'.contains m
  | _, _ => false

def apartRoutes (r r' : RestRoute) : Bool :=
  apartMethods r r' || r.patterns.all fun text => r'.patterns.all (apartPatterns text)

/-- The route has one pattern, made of segments, and no path is spelled in both its ways. -/
def wellSpelled (r : RestRoute) : Bool :=
  match r.patterns with
  | [text] => isSegmented text && decide ((spellings text).Pairwise fun l l' =>
      apart Placeholder.takes l l' = true)
  | _ => false

theorem wellSpelled_restRoutes : Routes.restRoutes.all wellSpelled = true := by decide +kernel

theorem pairwise_restRoutes :
    Routes.restRoutes.Pairwise fun r r' => apartRoutes r r' = true := by decide +kernel

/-! ## One candidate -/

theorem not_serves_of_apartMethods {r r' : RestRoute} (h : apartMethods r r' = true)
    {method : String} (hmethod : method ≠ "OPTIONS") (hr : r.serves method = true) :
    r'.serves method ≠ true := by
  intro hr'
  unfold apartMethods at h
  split at h
  · next methods methods' hmethods hmethods' =>
    have hin := serves_iff.mp hr methods hmethods
    have hin' := serves_iff.mp hr' methods' hmethods'
    have hor := List.all_eq_true.mp h method hin
    simp [hmethod, hin'] at hor
  · cases h

theorem segmented_of_mem_spellings {text : String} (h : isSegmented text = true)
    {l : List (Segment Placeholder)} (hl : l ∈ spellings text) : Segmented Placeholder.takes l := by
  unfold isSegmented at h
  rw [Bool.and_eq_true] at h
  exact segmented_of_slashesLast (List.all_eq_true.mp h.2 l hl)

/-- A path is accepted by one of two patterns that are apart. -/
theorem not_accepts_of_apartPatterns {p p' : Pattern} (hp : isSegmented p.text = true)
    (hp' : isSegmented p'.text = true) (h : apartPatterns p.text p'.text = true)
    {path : List Char} {args args' : List (Placeholder × Json)} (haccepts : p.Accepts path args) :
    ¬ p'.Accepts path args' := by
  rw [Pattern.accepts_iff hp']
  rintro ⟨l', hl', hfills'⟩
  obtain ⟨l, hl, hfills⟩ := (Pattern.accepts_iff hp).mp haccepts
  have hapart := List.all_eq_true.mp (List.all_eq_true.mp h l hl) l' hl'
  exact fills_apart (segmented_of_mem_spellings hp hl) (segmented_of_mem_spellings hp' hl') hapart
    hfills hfills'

/-- The placeholders of a pattern take the same of a path, however it is spelled. -/
theorem Pattern.Accepts.unique {p : Pattern} (hp : isSegmented p.text = true)
    (hspelled : (spellings p.text).Pairwise fun l l' => apart Placeholder.takes l l' = true)
    {path : List Char} {args args' : List (Placeholder × Json)} (h : p.Accepts path args)
    (h' : p.Accepts path args') : args = args' := by
  obtain ⟨l, hl, hfills⟩ := (accepts_iff hp).mp h
  obtain ⟨l', hl', hfills'⟩ := (accepts_iff hp).mp h'
  have hsame : l = l' := by
    by_contra hne
    rcases List.pairwise_iff_getElem.mp hspelled with hpairs
    obtain ⟨i, hi, rfl⟩ := List.getElem_of_mem hl
    obtain ⟨j, hj, rfl⟩ := List.getElem_of_mem hl'
    have hsegmented := segmented_of_mem_spellings hp hl
    have hsegmented' := segmented_of_mem_spellings hp hl'
    rcases Nat.lt_trichotomy i j with hlt | rfl | hlt
    · exact fills_apart hsegmented hsegmented' (hpairs i j hi hj hlt) hfills hfills'
    · exact hne rfl
    · exact fills_apart hsegmented' hsegmented (hpairs j i hj hi hlt) hfills' hfills
  subst hsame
  exact fills_unique (segmented_of_mem_spellings hp hl) hfills hfills'

/-- A candidate's pattern is the one its route has. -/
theorem Candidate.Answers.spelled {c : Candidate} {method path : String}
    (h : c.Answers method path) : c.route.patterns = [c.pattern.text] ∧
      isSegmented c.pattern.text = true ∧ (spellings c.pattern.text).Pairwise fun l l' =>
        apart Placeholder.takes l l' = true := by
  have hspelled := List.all_eq_true.mp wellSpelled_restRoutes c.route h.declared
  obtain ⟨patterns, hpatterns, hin⟩ := h.registered
  rw [← RestRoute.patterns_eq hpatterns] at hin
  unfold wellSpelled at hspelled
  split at hspelled
  · next text htext =>
    rw [htext, List.mem_singleton] at hin
    rw [Bool.and_eq_true, decide_eq_true_eq, ← hin] at hspelled
    rw [htext, hin]
    exact ⟨rfl, hin ▸ hspelled.1, hin ▸ hspelled.2⟩
  · cases hspelled

/-- Two candidates for a request are of routes that have a path and a method in common. -/
theorem Candidate.Answers.not_apart {c c' : Candidate} {method path : String}
    (h : c.Answers method path) (h' : c'.Answers method path) (hmethod : method ≠ "OPTIONS") :
    ¬ apartRoutes c.route c'.route = true := by
  intro hapart
  obtain ⟨hpatterns, hsegmented, -⟩ := h.spelled
  obtain ⟨hpatterns', hsegmented', -⟩ := h'.spelled
  unfold apartRoutes at hapart
  rw [hpatterns, hpatterns'] at hapart
  simp only [List.all_cons, List.all_nil, Bool.and_true, Bool.or_eq_true] at hapart
  rcases hapart with hapart | hapart
  · exact not_serves_of_apartMethods hapart hmethod h.serves h'.serves
  · exact not_accepts_of_apartPatterns hsegmented hsegmented' hapart h.accepts h'.accepts

/-- A route answers the paths that fill its pattern. -/
theorem exists_candidate {r : RestRoute} (hr : r ∈ Routes.restRoutes) {method text : String}
    (hmethod : r.serves method = true) (htext : r.expandedRoutes = .ok [text])
    (hpattern : ∃ p : Pattern, p.text = text) (hsegmented : isSegmented text = true)
    (path : String) {args : List (Placeholder × Json)}
    (hfills : Fills Placeholder.takes (slashed (segmentsOf text)) path.toList args) :
    ∃ c : Candidate, c.route = r ∧ c.args = args ∧ c.Answers method path := by
  obtain ⟨p, rfl⟩ := hpattern
  have hin : segmentsOf p.text ∈ spellings p.text := by
    unfold spellings
    split <;> exact List.mem_cons_self
  exact ⟨⟨r, p, args⟩, rfl, rfl, hr, hmethod, ⟨_, htext, List.mem_singleton_self _⟩,
    (Pattern.accepts_iff hsegmented).mpr ⟨_, hin, hfills⟩⟩

/-- An upload and a download share a path, and `OPTIONS`. -/
theorem exists_binary_candidate {r : RestRoute}
    (hr : r = Routes.binaryDownload ∨ r = Routes.binaryUpload) :
    ∃ c : Candidate, c.route = r ∧ c.Answers "OPTIONS" "/api/v1/binary/res.partner/1" := by
  have hmodel : (Placeholder.takes ⟨some "string", "model"⟩ "res.partner".toList) =
      some (.str "res.partner") := by rfl
  have hid : (Placeholder.takes ⟨some "int", "res_id"⟩ ['1']) = some (.int 1) := by rfl
  have hsegments : segmentsOf "/api/v1/binary/<string:model>/<int:res_id>" =
      [.text "api".toList, .text "v1".toList, .text "binary".toList,
       .hole ⟨some "string", "model"⟩, .hole ⟨some "int", "res_id"⟩] := by decide +kernel
  have hfills := fills_slashed_cons (Segment.takes_text "api".toList) <|
    fills_slashed_cons (Segment.takes_text "v1".toList) <|
    fills_slashed_cons (Segment.takes_text "binary".toList) <|
    fills_slashed_cons (Segment.takes_hole hmodel) <|
    fills_slashed_cons (Segment.takes_hole hid) fills_slashed_nil
  rw [← hsegments] at hfills
  have hdownload : Routes.binaryDownload.serves "OPTIONS" = true := by decide +kernel
  have hupload : Routes.binaryUpload.serves "OPTIONS" = true := by decide +kernel
  have hpattern : ∃ p : Pattern, p.text = "/api/v1/binary/<string:model>/<int:res_id>" :=
    exists_pattern_iff.mpr (by decide +kernel)
  have hsegmented : isSegmented "/api/v1/binary/<string:model>/<int:res_id>" = true := by
    decide +kernel
  rcases hr with rfl | rfl
  · obtain ⟨c, hroute, -, hc⟩ := exists_candidate (by simp [Routes.restRoutes, Routes.ssiRestRoutes])
      hdownload (by rfl) hpattern hsegmented
      "/api/v1/binary/res.partner/1" hfills
    exact ⟨c, hroute, hc⟩
  · obtain ⟨c, hroute, -, hc⟩ := exists_candidate (by simp [Routes.restRoutes, Routes.ssiRestRoutes])
      hupload (by rfl) hpattern hsegmented
      "/api/v1/binary/res.partner/1" hfills
    exact ⟨c, hroute, hc⟩

/-- **One endpoint.**  Whatever the path, the router has at most one route, pattern and arguments
to choose from, unless it is asked with `OPTIONS`. -/
theorem one_candidate_iff (method : String) :
    (∀ path c c', Candidate.Answers c method path → Candidate.Answers c' method path → c = c') ↔
      method ≠ "OPTIONS" := by
  constructor
  · rintro h rfl
    obtain ⟨c, hroute, hc⟩ := exists_binary_candidate (Or.inl rfl)
    obtain ⟨c', hroute', hc'⟩ := exists_binary_candidate (Or.inr rfl)
    have hendpoint := congrArg RestRoute.endpoint
      (hroute.symm.trans ((congrArg Candidate.route (h _ _ _ hc hc')).trans hroute'))
    exact absurd hendpoint (by decide)
  · intro hmethod path c c' hc hc'
    obtain ⟨hpatterns, hsegmented, hspelled⟩ := hc.spelled
    obtain ⟨hpatterns', -⟩ := hc'.spelled
    have hroute : c.route = c'.route := by
      have hsymm : Std.Symm fun r r' => apartRoutes r r' = true ∨ apartRoutes r' r = true :=
        ⟨fun _ _ => Or.symm⟩
      by_contra hne
      have hpairs : Routes.restRoutes.Pairwise fun r r' => apartRoutes r r' = true ∨
          apartRoutes r' r = true := pairwise_restRoutes.imp Or.inl
      rcases hpairs.forall hc.declared hc'.declared hne with h | h
      · exact hc.not_apart hc' hmethod h
      · exact hc'.not_apart hc hmethod h
    have hpattern : c.pattern = c'.pattern := by
      rw [hroute, hpatterns'] at hpatterns
      exact (Pattern.eq_of_text (List.singleton_inj.mp hpatterns)).symm
    have haccepts' := hc'.accepts
    rw [← hpattern] at haccepts'
    exact Candidate.ext hroute hpattern (hc.accepts.unique hsegmented hspelled haccepts')

end SsiRest
