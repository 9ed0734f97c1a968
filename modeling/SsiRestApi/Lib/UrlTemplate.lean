import Mathlib.Data.List.TakeWhile

/-!
# Templates of paths

A template is a list of characters and holes; a path fills it when the holes take what
stands in their places.  Most templates are segments behind slashes, each a text or one
hole, and the last hole perhaps takes slashes too.

    a path fills such a template in one way                          (fills_unique)
    templates that are apart are filled by no path in common         (fills_apart)
    which texts a path begins with is decided segment by segment     (prefix_segment_iff)
-/

namespace UrlTemplate

variable {β V : Type}

section

/- What a hole takes a text for, if it takes it. -/
variable (takes : β → List Char → Option V)

/-- The path has the characters of the template, and the holes take the rest. -/
inductive Fills : List (Char ⊕ β) → List Char → List (β × V) → Prop where
  | nil : Fills [] [] []
  | char {c l cs a} : Fills l cs a → Fills (.inl c :: l) (c :: cs) a
  | hole {b v t l cs a} : takes b t = some v → Fills l cs a →
      Fills (.inr b :: l) (t ++ cs) ((b, v) :: a)

end

/-- What stands between two slashes; `rest` is a hole that takes slashes as well. -/
inductive Segment (β : Type) where
  | text (cs : List Char)
  | hole (b : β)
  | rest (b : β)
  deriving DecidableEq

def Segment.items : Segment β → List (Char ⊕ β)
  | text cs => cs.map .inl
  | hole b => [.inr b]
  | rest b => [.inr b]

/-- The template of these segments. -/
def slashed : List (Segment β) → List (Char ⊕ β)
  | [] => []
  | s :: l => .inl '/' :: (s.items ++ slashed l)

section

variable (takes : β → List Char → Option V)

/-- Only a last hole takes slashes. -/
def Segmented : List (Segment β) → Prop
  | [] => True
  | .text cs :: l => '/' ∉ cs ∧ Segmented l
  | .hole b :: l => (∀ t v, takes b t = some v → '/' ∉ t) ∧ Segmented l
  | .rest _ :: l => l = []

/-- No text is one segment and the other. -/
def Segment.apart : Segment β → Segment β → Bool
  | text cs, text ds => cs != ds
  | text cs, hole b => (takes b cs).isNone
  | hole b, text cs => (takes b cs).isNone
  | _, _ => false

/-- Some segments in the same place are apart, or there are more of one than of the other. -/
def apart : List (Segment β) → List (Segment β) → Bool
  | [], [] => false
  | [], _ :: _ => true
  | _ :: _, [] => true
  | .rest _ :: _, _ :: _ => false
  | _ :: _, .rest _ :: _ => false
  | s :: l, s' :: l' => s.apart takes s' || apart l l'

/-- A segment between slashes takes the text. -/
def Segment.Takes : Segment β → List Char → List (β × V) → Prop
  | text cs, t, a => t = cs ∧ a = []
  | hole b, t, a => ∃ v, takes b t = some v ∧ a = [(b, v)]
  | rest b, t, a => ∃ v, takes b t = some v ∧ a = [(b, v)]

end

/-- The segments of a template; the first argument tells the holes that take slashes. -/
def segments (isRest : β → Bool) (l : List (Char ⊕ β)) : List (Segment β) :=
  ((l.splitOnP fun x => x.getLeft? == some '/').drop 1).map fun part =>
    match part with
    | [.inr b] => if isRest b then .rest b else .hole b
    | part => .text (part.filterMap Sum.getLeft?)

variable {takes : β → List Char → Option V}

/-! ## Filling -/

theorem fills_nil_iff {cs : List Char} {a : List (β × V)} :
    Fills takes [] cs a ↔ cs = [] ∧ a = [] := by
  constructor
  · intro h
    cases h
    exact ⟨rfl, rfl⟩
  · rintro ⟨rfl, rfl⟩
    exact .nil

theorem fills_char_iff {c : Char} {l : List (Char ⊕ β)} {cs : List Char} {a : List (β × V)} :
    Fills takes (.inl c :: l) cs a ↔ ∃ cs', cs = c :: cs' ∧ Fills takes l cs' a := by
  constructor
  · intro h
    cases h with
    | char h => exact ⟨_, rfl, h⟩
  · rintro ⟨cs', rfl, h⟩
    exact .char h

theorem fills_append_iff {l l' : List (Char ⊕ β)} {cs : List Char} {a : List (β × V)} :
    Fills takes (l ++ l') cs a ↔ ∃ cs₁ cs₂ a₁ a₂, cs = cs₁ ++ cs₂ ∧ a = a₁ ++ a₂ ∧
      Fills takes l cs₁ a₁ ∧ Fills takes l' cs₂ a₂ := by
  constructor
  · intro h
    induction l generalizing cs a with
    | nil => exact ⟨[], cs, [], a, rfl, rfl, .nil, h⟩
    | cons x l ih =>
      cases h with
      | char h =>
        obtain ⟨cs₁, cs₂, a₁, a₂, rfl, rfl, h₁, h₂⟩ := ih h
        exact ⟨_ :: cs₁, cs₂, a₁, a₂, rfl, rfl, .char h₁, h₂⟩
      | hole hv h =>
        obtain ⟨cs₁, cs₂, a₁, a₂, rfl, rfl, h₁, h₂⟩ := ih h
        exact ⟨_ ++ cs₁, cs₂, _ :: a₁, a₂, (List.append_assoc _ _ _).symm, rfl, .hole hv h₁, h₂⟩
  · rintro ⟨cs₁, cs₂, a₁, a₂, rfl, rfl, h₁, h₂⟩
    induction h₁ with
    | nil => exact h₂
    | char _ ih => exact .char ih
    | hole hv _ ih =>
      rw [List.append_assoc]
      exact .hole hv ih

theorem slashed_append (l l' : List (Segment β)) : slashed (l ++ l') = slashed l ++ slashed l' := by
  induction l with
  | nil => rfl
  | cons s l ih => rw [List.cons_append, slashed, slashed, ih, List.cons_append, List.append_assoc]

theorem fills_items_iff {s : Segment β} {t : List Char} {a : List (β × V)} :
    Fills takes s.items t a ↔ s.Takes takes t a := by
  have hhole : ∀ b, Fills takes [.inr b] t a ↔ ∃ v, takes b t = some v ∧ a = [(b, v)] := by
    intro b
    constructor
    · intro h
      cases h with
      | hole hv h =>
        cases h
        exact ⟨_, by rwa [List.append_nil], rfl⟩
    · rintro ⟨v, hv, rfl⟩
      rw [← List.append_nil t]
      exact .hole hv .nil
  cases s with
  | text cs =>
    show Fills takes (cs.map .inl) t a ↔ t = cs ∧ a = []
    clear hhole
    induction cs generalizing t with
    | nil => exact fills_nil_iff
    | cons c cs ih =>
      rw [List.map_cons, fills_char_iff]
      constructor
      · rintro ⟨t, rfl, h⟩
        obtain ⟨rfl, rfl⟩ := ih.mp h
        exact ⟨rfl, rfl⟩
      · rintro ⟨rfl, rfl⟩
        exact ⟨cs, rfl, ih.mpr ⟨rfl, rfl⟩⟩
  | hole b => exact hhole b
  | rest b => exact hhole b

theorem Segment.takes_text (cs : List Char) : (Segment.text cs).Takes takes cs [] := ⟨rfl, rfl⟩

theorem Segment.takes_hole {b : β} {t : List Char} {v : V} (h : takes b t = some v) :
    (Segment.hole b).Takes takes t [(b, v)] := ⟨v, h, rfl⟩

theorem Segment.Takes.unique {s : Segment β} {t : List Char} {a a' : List (β × V)}
    (h : s.Takes takes t a) (h' : s.Takes takes t a') : a = a' := by
  cases s with
  | text cs => exact h.2.trans h'.2.symm
  | hole b =>
    obtain ⟨v, hv, rfl⟩ := h
    obtain ⟨v', hv', rfl⟩ := h'
    rw [Option.some.inj (hv.symm.trans hv')]
  | rest b =>
    obtain ⟨v, hv, rfl⟩ := h
    obtain ⟨v', hv', rfl⟩ := h'
    rw [Option.some.inj (hv.symm.trans hv')]

theorem Segment.not_takes_of_apart {s s' : Segment β} {t : List Char} {a a' : List (β × V)}
    (hapart : s.apart takes s' = true) (h : s.Takes takes t a) : ¬ s'.Takes takes t a' := by
  intro h'
  cases s with
  | text cs =>
    cases s' with
    | text ds =>
      obtain ⟨rfl, -⟩ := h
      obtain ⟨rfl, -⟩ := h'
      simp [apart] at hapart
    | hole b =>
      obtain ⟨rfl, -⟩ := h
      obtain ⟨v, hv, -⟩ := h'
      simp [apart, hv] at hapart
    | rest b => cases hapart
  | hole b =>
    cases s' with
    | text ds =>
      obtain ⟨rfl, -⟩ := h'
      obtain ⟨v, hv, -⟩ := h
      simp [apart, hv] at hapart
    | hole b' => cases hapart
    | rest b' => cases hapart
  | rest b => cases hapart

/-! ## Segment by segment -/

/-- Nothing, or a slash and more. -/
def AtSlash (cs : List Char) : Prop := cs = [] ∨ ∃ rest, cs = '/' :: rest

theorem atSlash_of_fills {l : List (Segment β)} {cs : List Char} {a : List (β × V)}
    (h : Fills takes (slashed l) cs a) : AtSlash cs := by
  cases l with
  | nil => exact Or.inl (fills_nil_iff.mp h).1
  | cons s l =>
    obtain ⟨rest, rfl, -⟩ := fills_char_iff.mp h
    exact Or.inr ⟨rest, rfl⟩

/-- A text without slashes ends at the first slash. -/
theorem append_inj_atSlash {t t' rest rest' : List Char} (ht : '/' ∉ t) (ht' : '/' ∉ t')
    (hrest : AtSlash rest) (hrest' : AtSlash rest') (h : t ++ rest = t' ++ rest') :
    t = t' ∧ rest = rest' := by
  have htake : ∀ {t rest : List Char}, '/' ∉ t → AtSlash rest →
      (t ++ rest).takeWhile (· ≠ '/') = t := by
    intro t rest ht hrest
    have hplain : ∀ c ∈ t, decide (c ≠ '/') = true := fun c hc => by
      have hne : c ≠ '/' := fun hslash => ht (hslash ▸ hc)
      simpa using hne
    rw [List.takeWhile_append_of_pos hplain]
    rcases hrest with rfl | ⟨rest, rfl⟩
    · rw [List.takeWhile_nil, List.append_nil]
    · rw [List.takeWhile_cons_of_neg (by simp), List.append_nil]
  have heq : t = t' := by rw [← htake ht hrest, h, htake ht' hrest']
  subst heq
  exact ⟨rfl, List.append_cancel_left h⟩

/-- A text without slashes is the first segment of the path, or not. -/
theorem prefix_segment_iff {t t' rest more : List Char} (ht : '/' ∉ t) (ht' : '/' ∉ t')
    (hrest : AtSlash rest) :
    t ++ '/' :: more <+: t' ++ rest ↔ t = t' ∧ '/' :: more <+: rest := by
  constructor
  · rintro ⟨after, h⟩
    rw [List.append_assoc] at h
    obtain ⟨rfl, hmore⟩ := append_inj_atSlash ht ht' (Or.inr ⟨_, rfl⟩) hrest h
    exact ⟨rfl, after, hmore⟩
  · rintro ⟨rfl, hmore⟩
    exact (List.prefix_append_right_inj t).mpr hmore

/-- No slash is taken in a segment before the last. -/
theorem Segment.Takes.plain {s : Segment β} {l : List (Segment β)} {t : List Char}
    {a : List (β × V)} (hl : Segmented takes (s :: l)) (hrest : ∀ b, s ≠ .rest b)
    (h : s.Takes takes t a) : '/' ∉ t ∧ Segmented takes l := by
  cases s with
  | text cs =>
    obtain ⟨rfl, -⟩ := h
    exact hl
  | hole b =>
    obtain ⟨v, hv, -⟩ := h
    exact ⟨hl.1 t v hv, hl.2⟩
  | rest b => exact absurd rfl (hrest b)

/-- A path that fills a template has its first segment behind a slash. -/
theorem exists_of_fills_slashed {s : Segment β} {l : List (Segment β)} {cs : List Char}
    {a : List (β × V)} (h : Fills takes (slashed (s :: l)) cs a) :
    ∃ t rest a₁ a₂, cs = '/' :: (t ++ rest) ∧ a = a₁ ++ a₂ ∧ s.Takes takes t a₁ ∧
      Fills takes (slashed l) rest a₂ ∧ AtSlash rest := by
  obtain ⟨cs', rfl, hfills⟩ := fills_char_iff.mp h
  obtain ⟨t, rest, a₁, a₂, rfl, rfl, ht, hrest⟩ := fills_append_iff.mp hfills
  exact ⟨t, rest, a₁, a₂, rfl, rfl, fills_items_iff.mp ht, hrest, atSlash_of_fills hrest⟩

theorem fills_slashed_nil : Fills takes (slashed []) [] [] := .nil

/-- A path is put together segment by segment. -/
theorem fills_slashed_cons {s : Segment β} {l : List (Segment β)} {t rest : List Char}
    {a₁ a₂ : List (β × V)} (ht : s.Takes takes t a₁) (hrest : Fills takes (slashed l) rest a₂) :
    Fills takes (slashed (s :: l)) ('/' :: (t ++ rest)) (a₁ ++ a₂) :=
  .char (fills_append_iff.mpr ⟨t, rest, a₁, a₂, rfl, rfl, fills_items_iff.mpr ht, hrest⟩)

theorem fills_unique {l : List (Segment β)} (hl : Segmented takes l) {cs : List Char}
    {a a' : List (β × V)} (h : Fills takes (slashed l) cs a) (h' : Fills takes (slashed l) cs a') :
    a = a' := by
  induction l generalizing cs a a' with
  | nil => rw [(fills_nil_iff.mp h).2, (fills_nil_iff.mp h').2]
  | cons s l ih =>
    obtain ⟨t, rest, a₁, a₂, rfl, rfl, ht, hrest, hslash⟩ := exists_of_fills_slashed h
    obtain ⟨t', rest', a₁', a₂', heq, rfl, ht', hrest', hslash'⟩ := exists_of_fills_slashed h'
    have heq := (List.cons.inj heq).2
    by_cases hs : ∀ b, s ≠ .rest b
    · obtain ⟨hplain, hl'⟩ := ht.plain hl hs
      obtain ⟨rfl, rfl⟩ := append_inj_atSlash hplain (ht'.plain hl hs).1 hslash hslash' heq
      rw [ht.unique ht', ih hl' hrest hrest']
    · obtain ⟨b, hb⟩ := not_forall.mp hs
      obtain rfl := not_not.mp hb
      obtain rfl : l = [] := hl
      obtain ⟨rfl, rfl⟩ := fills_nil_iff.mp hrest
      obtain ⟨rfl, rfl⟩ := fills_nil_iff.mp hrest'
      rw [List.append_nil, List.append_nil] at heq
      subst heq
      rw [ht.unique ht']

theorem fills_apart {l l' : List (Segment β)} (hl : Segmented takes l) (hl' : Segmented takes l')
    (hapart : apart takes l l' = true) {cs : List Char} {a a' : List (β × V)}
    (h : Fills takes (slashed l) cs a) : ¬ Fills takes (slashed l') cs a' := by
  intro h'
  induction l generalizing l' cs a a' with
  | nil =>
    cases l' with
    | nil => cases hapart
    | cons s' l' =>
      obtain ⟨rfl, -⟩ := fills_nil_iff.mp h
      obtain ⟨_, hcons, -⟩ := fills_char_iff.mp h'
      cases hcons
  | cons s l ih =>
    cases l' with
    | nil =>
      obtain ⟨rfl, -⟩ := fills_nil_iff.mp h'
      obtain ⟨_, hcons, -⟩ := fills_char_iff.mp h
      cases hcons
    | cons s' l' =>
      obtain ⟨t, rest, a₁, a₂, rfl, rfl, ht, hrest, hslash⟩ := exists_of_fills_slashed h
      obtain ⟨t', rest', a₁', a₂', heq, rfl, ht', hrest', hslash'⟩ := exists_of_fills_slashed h'
      have heq := (List.cons.inj heq).2
      have hs : ∀ b, s ≠ .rest b := by
        rintro b rfl
        simp [apart] at hapart
      have hs' : ∀ b, s' ≠ .rest b := by
        rintro b rfl
        cases s <;> simp [apart] at hapart
      obtain ⟨hplain, htail⟩ := ht.plain hl hs
      obtain ⟨hplain', htail'⟩ := ht'.plain hl' hs'
      obtain ⟨rfl, rfl⟩ := append_inj_atSlash hplain hplain' hslash hslash' heq
      have hor : s.apart takes s' = true ∨ apart takes l l' = true := by
        cases s with
        | rest b => exact absurd rfl (hs b)
        | text cs =>
          cases s' with
          | rest b => exact absurd rfl (hs' b)
          | text ds => simpa [apart] using hapart
          | hole b => simpa [apart] using hapart
        | hole b =>
          cases s' with
          | rest b => exact absurd rfl (hs' b)
          | text ds => simpa [apart] using hapart
          | hole b => simpa [apart] using hapart
      rcases hor with hor | hor
      · exact Segment.not_takes_of_apart hor ht ht'
      · exact ih htail htail' hor hrest hrest'

end UrlTemplate
