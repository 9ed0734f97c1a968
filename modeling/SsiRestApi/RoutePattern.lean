import Mathlib.Data.List.TakeWhile
import SsiRestApi.Lib.Scan
import SsiRestApi.Routing

/-!
# URL patterns

The pattern of a rule is plain text with placeholders `<converter:name>`; its OpenAPI path
template has `{name}` in their place.

    a template reads back as its pattern ↔ no plain `{text}` in it   (readTemplate_template_iff)
    nothing else reads back as the pattern                                 (template_of_reads)
-/

namespace SsiRest

open Py

/-- `\w` among the ASCII characters; the router knows no other names. -/
def isWord (c : Char) : Bool := c.isAlphanum || c == '_'

structure Placeholder where
  converter : Option String
  name : String
  deriving DecidableEq

/-- A name the router accepts. -/
def IsName (s : String) : Prop := s.toList ≠ [] ∧ ∀ c ∈ s.toList, isWord c = true

structure Placeholder.WellFormed (p : Placeholder) : Prop where
  converter : ∀ c, p.converter = some c → IsName c
  name : IsName p.name

/-- The placeholder in a pattern. -/
def Placeholder.text (p : Placeholder) : List Char :=
  match p.converter with
  | none => '<' :: p.name.toList ++ ['>']
  | some converter => '<' :: converter.toList ++ ':' :: p.name.toList ++ ['>']

/-- A pattern that the router can compile. -/
@[ext] structure Pattern where
  items : List (Char ⊕ Placeholder)
  static : ∀ c, .inl c ∈ items → c ≠ '<'
  placeholder : ∀ p, .inr p ∈ items → p.WellFormed

def Pattern.text (p : Pattern) : String := String.ofList (Scan.render Placeholder.text p.items)

/-- `_PATH_PARAM_RE`, `<(?:(\w+):)?(\w+)>`. -/
def matchParam : List Char → Option (Placeholder × Nat)
  | '<' :: cs =>
    let word := cs.takeWhile isWord
    if word = [] then none
    else match cs.dropWhile isWord with
      | '>' :: _ => some (⟨none, String.ofList word⟩, word.length + 2)
      | ':' :: cs' =>
        let name := cs'.takeWhile isWord
        if name = [] then none
        else match cs'.dropWhile isWord with
          | '>' :: _ =>
            some (⟨some (String.ofList word), String.ofList name⟩, word.length + name.length + 3)
          | _ => none
      | _ => none
  | _ => none

/-! ## Path templates -/

def isBrace (c : Char) : Bool := c == '{' || c == '}'

/-- A template expression. -/
def expression (name : String) : List Char := '{' :: name.toList ++ ['}']

/-- A template expression at the front of a text: a name without braces inside braces. -/
def matchExpression : List Char → Option (String × Nat)
  | '{' :: cs =>
    let name := cs.takeWhile (fun c => !isBrace c)
    if name = [] then none
    else match cs.dropWhile (fun c => !isBrace c) with
      | '}' :: _ => some (String.ofList name, name.length + 2)
      | _ => none
  | _ => none

/-- The template of a pattern. -/
def Pattern.template (p : Pattern) : String :=
  String.ofList (Scan.render (fun h => expression h.name) p.items)

/-- What a template says: its plain characters and the names of its placeholders. -/
def readTemplate (template : String) : List (Char ⊕ String) :=
  Scan.items matchExpression 0 template.toList

/-- The pattern without its converters. -/
def Pattern.erased (p : Pattern) : List (Char ⊕ String) :=
  p.items.map (Sum.map id Placeholder.name)

/-- The names of placeholders, in order. -/
def placeholders (l : List (Char ⊕ String)) : List String := l.filterMap Sum.getRight?

/-- Plain text that a template would show as a placeholder. -/
def Pattern.HasLiteral (p : Pattern) : Prop :=
  ∃ before name after, name.toList ≠ [] ∧ (∀ c ∈ name.toList, isBrace c = false) ∧
    p.items = before ++ (expression name).map Sum.inl ++ after

/-! ## Reading a pattern -/

theorem takeWhile_append_of_neg {f : Char → Bool} {l : List Char} (hl : ∀ c ∈ l, f c = true)
    {c : Char} (hc : f c = false) (cs : List Char) : (l ++ c :: cs).takeWhile f = l := by
  rw [List.takeWhile_append_of_pos hl, List.takeWhile_cons_of_neg (by rw [hc]; decide),
    List.append_nil]

theorem dropWhile_append_of_neg {f : Char → Bool} {l : List Char} (hl : ∀ c ∈ l, f c = true)
    {c : Char} (hc : f c = false) (cs : List Char) : (l ++ c :: cs).dropWhile f = c :: cs := by
  rw [List.dropWhile_append_of_pos hl, List.dropWhile_cons_of_neg (by rw [hc]; decide)]

theorem Placeholder.text_ne_nil (p : Placeholder) : p.text ≠ [] := by
  unfold Placeholder.text
  cases p.converter <;> exact List.cons_ne_nil _ _

/-- The expression finds a placeholder as a whole. -/
theorem Placeholder.WellFormed.reads {p : Placeholder} (hp : p.WellFormed) :
    Scan.Reads matchParam Placeholder.text id p := by
  refine ⟨p.text_ne_nil, ?_⟩
  intro rest
  obtain ⟨converter, name⟩ := p
  obtain ⟨hname, hwords⟩ := hp.name
  dsimp only at hname hwords
  cases converter with
  | none =>
    have htext : Placeholder.text ⟨none, name⟩ ++ rest = '<' :: (name.toList ++ '>' :: rest) := by
      simp [Placeholder.text]
    rw [htext, matchParam, takeWhile_append_of_neg hwords (by decide),
      dropWhile_append_of_neg hwords (by decide), if_neg hname]
    simp [Placeholder.text]
  | some converter =>
    obtain ⟨hconverter, hletters⟩ := hp.converter converter rfl
    have htext : Placeholder.text ⟨some converter, name⟩ ++ rest =
        '<' :: (converter.toList ++ ':' :: (name.toList ++ '>' :: rest)) := by
      simp [Placeholder.text]
    rw [htext, matchParam, takeWhile_append_of_neg hletters (by decide),
      dropWhile_append_of_neg hletters (by decide), if_neg hconverter]
    simp only
    rw [takeWhile_append_of_neg hwords (by decide), dropWhile_append_of_neg hwords (by decide),
      if_neg hname]
    simp [Placeholder.text]
    omega

theorem isName_takeWhile {cs : List Char} (hne : cs.takeWhile isWord ≠ []) :
    IsName (String.ofList (cs.takeWhile isWord)) := by
  unfold IsName
  rw [String.toList_ofList]
  exact ⟨hne, fun c hc => List.mem_takeWhile_imp hc⟩

/-- What the expression finds is a placeholder at the front of the text. -/
theorem matchParam_eq_some {cs : List Char} {p : Placeholder} {length : Nat}
    (h : matchParam cs = some (p, length)) :
    p.WellFormed ∧ length = p.text.length ∧ ∃ rest, cs = p.text ++ rest := by
  unfold matchParam at h
  split at h
  · next cs =>
    have hcs := List.takeWhile_append_dropWhile (p := isWord) (l := cs)
    dsimp only at h
    split at h
    · cases h
    · next hword =>
      split at h
      · next rest hrest =>
        cases h
        refine ⟨⟨fun c hc => (nomatch hc), isName_takeWhile hword⟩, ?_, rest, ?_⟩
        · simp [Placeholder.text]
        · rw [hrest] at hcs
          conv_lhs => rw [← hcs]
          simp [Placeholder.text]
      · next cs' hcs' =>
        have htail := List.takeWhile_append_dropWhile (p := isWord) (l := cs')
        split at h
        · cases h
        · next hname =>
          split at h
          · next rest hrest =>
            cases h
            refine ⟨⟨?_, isName_takeWhile hname⟩, ?_, rest, ?_⟩
            · intro c hc
              cases hc
              exact isName_takeWhile hword
            · simp [Placeholder.text]
              omega
            · rw [hrest] at htail
              rw [hcs'] at hcs
              conv_lhs => rw [← hcs, ← htail]
              simp [Placeholder.text]
          · cases h
      · cases h
  · cases h

theorem lossless_matchParam : Scan.Lossless matchParam Placeholder.text := by
  intro cs p length h
  obtain ⟨-, hlength, rest, hrest⟩ := matchParam_eq_some h
  refine ⟨?_, rest, hrest, hlength⟩
  rw [hlength]
  exact List.length_pos_of_ne_nil p.text_ne_nil

/-- The placeholders of a pattern are found where they are, and nowhere else. -/
theorem Pattern.items_text (p : Pattern) : Scan.items matchParam 0 p.text.toList = p.items := by
  have hclear : Scan.Clear matchParam Placeholder.text p.items := by
    apply Scan.clear_of_forall
    intro c hc cs
    unfold matchParam
    split
    · next h => exact absurd (List.cons.inj h).1 (p.static c hc)
    · rfl
  unfold Pattern.text
  rw [String.toList_ofList, (Scan.items_render_iff fun h hh => (p.placeholder h hh).reads).mpr hclear,
    Sum.map_id_id, List.map_id]

/-- A text is the pattern of at most one rule. -/
theorem Pattern.eq_of_text {p q : Pattern} (h : p.text = q.text) : p = q := by
  apply Pattern.ext
  rw [← p.items_text, h, q.items_text]

/-- The texts of patterns are those without a `<` that starts no placeholder. -/
theorem exists_pattern_iff {text : String} :
    (∃ p : Pattern, p.text = text) ↔
      '<' ∉ (Scan.items matchParam 0 text.toList).filterMap Sum.getLeft? := by
  constructor
  · rintro ⟨p, rfl⟩ h
    rw [p.items_text] at h
    obtain ⟨x, hx, hleft⟩ := List.mem_filterMap.mp h
    rw [Sum.getLeft?_eq_some_iff] at hleft
    subst hleft
    exact p.static _ hx rfl
  · intro h
    refine ⟨⟨Scan.items matchParam 0 text.toList, ?_, ?_⟩, ?_⟩
    · rintro c hc rfl
      exact h (List.mem_filterMap.mpr ⟨_, hc, rfl⟩)
    · intro p hp
      exact Scan.of_mem_items (fun cs b length hb => (matchParam_eq_some hb).1) hp
    · unfold Pattern.text
      rw [Scan.render_items lossless_matchParam, String.ofList_toList]

/-! ## Under a version -/

theorem versionedPath_plain (version : Nat) (c : Char)
    (hc : c ∈ (pathPrefix ++ "/v" ++ toString version).toList) :
    c ∈ (pathPrefix ++ "/v").toList ∨ isDecimal c = true := by
  rw [String.toList_append, List.mem_append] at hc
  rcases hc with hc | hc
  · exact Or.inl hc
  · rw [Nat.toString_eq_ofList_toDigits, String.toList_ofList] at hc
    exact Or.inr (isDecimal_of_mem_toDigits hc)

/-- The pattern under a version. -/
def Pattern.versioned (version : Nat) (p : Pattern) : Pattern where
  items := (pathPrefix ++ "/v" ++ toString version).toList.map Sum.inl ++ p.items
  static := by
    intro c hc
    rcases List.mem_append.mp hc with hc | hc
    · obtain ⟨d, hd, hdc⟩ := List.mem_map.mp hc
      cases hdc
      rcases versionedPath_plain version c hd with hin | hdecimal
      · rintro rfl
        exact absurd hin (by decide +kernel)
      · rintro rfl
        exact absurd hdecimal (by decide +kernel)
    · exact p.static c hc
  placeholder := by
    intro h hh
    rcases List.mem_append.mp hh with hh | hh
    · obtain ⟨d, -, hd⟩ := List.mem_map.mp hh
      cases hd
    · exact p.placeholder h hh

theorem Pattern.text_versioned (version : Nat) (p : Pattern) :
    (p.versioned version).text = versionedPath version p.text := by
  unfold Pattern.text Pattern.versioned
  dsimp only
  rw [Scan.render_append, Scan.render_map_inl, String.ofList_append, String.ofList_toList]
  rfl

/-! ## Reading a template -/

theorem isBrace_of_isWord {c : Char} (h : isWord c = true) : isBrace c = false := by
  cases hb : isBrace c with
  | false => rfl
  | true =>
    unfold isBrace at hb
    rw [Bool.or_eq_true, beq_iff_eq, beq_iff_eq] at hb
    rcases hb with rfl | rfl <;> exact absurd h (by decide)

/-- An expression with a proper name is found as a whole. -/
theorem matchExpression_append {name : String} (hne : name.toList ≠ [])
    (hname : ∀ c ∈ name.toList, isBrace c = false) (rest : List Char) :
    matchExpression (expression name ++ rest) = some (name, (expression name).length) := by
  have hplain : ∀ c ∈ name.toList, (!isBrace c) = true := by
    intro c hc
    rw [hname c hc]
    rfl
  have htext : expression name ++ rest = '{' :: (name.toList ++ '}' :: rest) := by
    simp [expression]
  rw [htext, matchExpression, takeWhile_append_of_neg hplain (by decide),
    dropWhile_append_of_neg hplain (by decide), if_neg hne]
  simp [expression]

/-- What is found in a text is an expression at its front. -/
theorem matchExpression_eq_some {cs : List Char} {name : String} {length : Nat}
    (h : matchExpression cs = some (name, length)) :
    name.toList ≠ [] ∧ (∀ c ∈ name.toList, isBrace c = false) ∧
      length = (expression name).length ∧ ∃ rest, cs = expression name ++ rest := by
  unfold matchExpression at h
  split at h
  · next cs =>
    dsimp only at h
    split at h
    · cases h
    · next hne =>
      split at h
      · next rest hrest =>
        cases h
        refine ⟨by rwa [String.toList_ofList], ?_, ?_, rest, ?_⟩
        · intro c hc
          rw [String.toList_ofList] at hc
          simpa using List.mem_takeWhile_imp hc
        · simp [expression]
        · conv_lhs => rw [← List.takeWhile_append_dropWhile (p := fun c => !isBrace c) (l := cs)]
          rw [hrest]
          simp [expression]
      · cases h
  · cases h

theorem lossless_matchExpression : Scan.Lossless matchExpression expression := by
  intro cs name length h
  obtain ⟨-, -, hlength, rest, hrest⟩ := matchExpression_eq_some h
  refine ⟨?_, rest, hrest, hlength⟩
  rw [hlength]
  exact Nat.succ_pos _

theorem Placeholder.WellFormed.reads_expression {p : Placeholder} (hp : p.WellFormed) :
    Scan.Reads matchExpression (fun h => expression h.name) Placeholder.name p :=
  ⟨List.cons_ne_nil _ _, matchExpression_append hp.name.1 fun c hc =>
    isBrace_of_isWord (hp.name.2 c hc)⟩

/-- Only the template of a pattern reads back as the pattern. -/
theorem template_of_reads {p : Pattern} {template : String}
    (h : readTemplate template = p.erased) : template = p.template := by
  have hrender := Scan.render_items lossless_matchExpression template.toList
  unfold readTemplate at h
  rw [h] at hrender
  unfold Pattern.erased at hrender
  rw [Scan.render_map] at hrender
  rw [← String.toList_inj, ← hrender]
  unfold Pattern.template
  rw [String.toList_ofList]

/-- A text without `{` comes from plain characters. -/
theorem plain_of_render {l : List (Char ⊕ Placeholder)} {cs rest : List Char}
    (hcs : ∀ c ∈ cs, c ≠ '{') (h : Scan.render (fun p => expression p.name) l = cs ++ rest) :
    ∃ after, l = cs.map Sum.inl ++ after := by
  induction cs generalizing l with
  | nil => exact ⟨l, rfl⟩
  | cons c cs ih =>
    cases l with
    | nil => cases h
    | cons x l =>
      cases x with
      | inl d =>
        rw [Scan.render_inl, List.cons_append] at h
        obtain ⟨rfl, htail⟩ := List.cons.inj h
        obtain ⟨after, hafter⟩ := ih (fun c hc => hcs c (List.mem_cons_of_mem _ hc)) htail
        exact ⟨after, by rw [hafter]; rfl⟩
      | inr p =>
        rw [Scan.render_inr, List.cons_append] at h
        exact absurd (List.cons.inj h).1.symm (hcs c List.mem_cons_self)

/-! ## Plain text that looks like a placeholder -/

/-- Plain text that looks like an expression comes first. -/
def BeginsLiteral (l : List (Char ⊕ Placeholder)) : Prop :=
  ∃ name after, name.toList ≠ [] ∧ (∀ c ∈ name.toList, isBrace c = false) ∧
    l = (expression name).map Sum.inl ++ after

/-- Plain text that looks like an expression comes somewhere. -/
def HoldsLiteral (l : List (Char ⊕ Placeholder)) : Prop :=
  ∃ before name after, name.toList ≠ [] ∧ (∀ c ∈ name.toList, isBrace c = false) ∧
    l = before ++ (expression name).map Sum.inl ++ after

theorem not_holdsLiteral_nil : ¬ HoldsLiteral [] := by
  rintro ⟨before, name, after, -, -, h⟩
  have hlength := congrArg List.length h
  simp [expression] at hlength

theorem holdsLiteral_cons_iff {x : Char ⊕ Placeholder} {l : List (Char ⊕ Placeholder)} :
    HoldsLiteral (x :: l) ↔ BeginsLiteral (x :: l) ∨ HoldsLiteral l := by
  constructor
  · rintro ⟨before, name, after, hne, hname, h⟩
    cases before with
    | nil => exact Or.inl ⟨name, after, hne, hname, h⟩
    | cons y before => exact Or.inr ⟨before, name, after, hne, hname, (List.cons.inj h).2⟩
  · rintro (⟨name, after, hne, hname, h⟩ | ⟨before, name, after, hne, hname, h⟩)
    · exact ⟨[], name, after, hne, hname, h⟩
    · exact ⟨x :: before, name, after, hne, hname, by rw [h]; rfl⟩

theorem not_beginsLiteral_placeholder (p : Placeholder) (l : List (Char ⊕ Placeholder)) :
    ¬ BeginsLiteral (.inr p :: l) := by
  rintro ⟨name, after, -, -, h⟩
  cases h

/-- An expression begins at a plain character exactly when it is plain itself. -/
theorem matchExpression_render_iff {c : Char} {l : List (Char ⊕ Placeholder)} :
    matchExpression (c :: Scan.render (fun p => expression p.name) l) ≠ none ↔
      BeginsLiteral (.inl c :: l) := by
  constructor
  · intro h
    obtain ⟨⟨name, length⟩, hmatch⟩ := Option.ne_none_iff_exists'.mp h
    obtain ⟨hne, hname, -, rest, hrest⟩ := matchExpression_eq_some hmatch
    unfold expression at hrest
    rw [List.cons_append, List.cons_append] at hrest
    obtain ⟨rfl, htail⟩ := List.cons.inj hrest
    have hplain : ∀ d ∈ name.toList ++ ['}'], d ≠ '{' := by
      intro d hd
      rcases List.mem_append.mp hd with hd | hd
      · rintro rfl
        exact absurd (hname _ hd) (by decide)
      · rw [List.mem_singleton.mp hd]
        decide
    obtain ⟨after, hafter⟩ := plain_of_render hplain htail
    refine ⟨name, after, hne, hname, ?_⟩
    rw [hafter]
    simp [expression]
  · rintro ⟨name, after, hne, hname, heq⟩
    have hrender := congrArg (Scan.render fun p : Placeholder => expression p.name) heq
    rw [Scan.render_inl, Scan.render_append, Scan.render_map_inl] at hrender
    rw [hrender, matchExpression_append hne hname]
    exact Option.some_ne_none _

/-- Nothing plain is taken for an expression exactly when no plain text looks like one. -/
theorem clear_expression_iff (l : List (Char ⊕ Placeholder)) :
    Scan.Clear matchExpression (fun p => expression p.name) l ↔ ¬ HoldsLiteral l := by
  induction l with
  | nil => exact iff_of_true trivial not_holdsLiteral_nil
  | cons x l ih =>
    rw [holdsLiteral_cons_iff, not_or, ← ih]
    cases x with
    | inl c =>
      rw [← matchExpression_render_iff, not_not]
      rfl
    | inr p =>
      have hnot := not_beginsLiteral_placeholder p l
      exact ⟨fun h => ⟨hnot, h⟩, fun h => h.2⟩

/-- A template reads back as its pattern exactly when no plain text of the pattern looks like a
placeholder. -/
theorem readTemplate_template_iff (p : Pattern) :
    readTemplate p.template = p.erased ↔ ¬ p.HasLiteral := by
  have hclear : Scan.Clear matchExpression (fun h => expression h.name) p.items ↔
      ¬ p.HasLiteral := clear_expression_iff p.items
  unfold readTemplate Pattern.template Pattern.erased
  rw [String.toList_ofList,
    Scan.items_render_iff fun h hh => (p.placeholder h hh).reads_expression, hclear]

end SsiRest
