import Mathlib.Data.List.TakeWhile

/-!
# Taking URLs apart

`urllib.parse.urlsplit` and `urlunsplit`, on texts as their lists of characters.

    the parts of a URL are canonical               (canonical_urlsplit)
    canonical parts are what their URL splits into (urlsplit_urlunsplit)
-/

namespace Py

/-- `SplitResult`. -/
structure SplitResult where
  scheme : List Char
  netloc : List Char
  path : List Char
  query : List Char
  fragment : List Char
  deriving DecidableEq

def isAsciiAlpha (c : Char) : Bool :=
  let n := c.toNat
  (65 ≤ n && n ≤ 90) || (97 ≤ n && n ≤ 122)

/-- `scheme_chars`. -/
def isSchemeChar (c : Char) : Bool :=
  let n := c.toNat
  isAsciiAlpha c || (48 ≤ n && n ≤ 57) || n == 43 || n == 45 || n == 46

/-- What a scheme consists of. -/
def isScheme (cs : List Char) : Bool :=
  match cs with
  | [] => false
  | c :: _ => isAsciiAlpha c && cs.all isSchemeChar

/-- The lower case of a scheme's character. -/
def lowerAscii (c : Char) : Char :=
  if 65 ≤ c.toNat ∧ c.toNat ≤ 90 then Char.ofNat (c.toNat + 32) else c

/-- `_UNSAFE_URL_BYTES_TO_REMOVE`. -/
def unsafeChars : List Char := ['\t', '\r', '\n']

def netlocEnds : List Char := ['/', '?', '#']

/-- The text up to the first `sep`, and what follows it. -/
def splitFirst (sep : Char) (cs : List Char) : List Char × List Char :=
  (cs.takeWhile (· != sep), (cs.dropWhile (· != sep)).drop 1)

/-- Leading blanks and control characters go, and the unsafe ones anywhere. -/
def cleanUrl (cs : List Char) : List Char :=
  (cs.dropWhile fun c => c.toNat ≤ 32).filter fun c => !unsafeChars.contains c

def splitScheme (cs : List Char) : List Char × List Char :=
  if cs.contains ':' && isScheme (cs.takeWhile (· != ':')) then
    ((cs.takeWhile (· != ':')).map lowerAscii, (cs.dropWhile (· != ':')).drop 1)
  else ([], cs)

/-- `_splitnetloc` after a `//`. -/
def splitNetloc : List Char → List Char × List Char
  | '/' :: '/' :: cs =>
    (cs.takeWhile fun c => !netlocEnds.contains c, cs.dropWhile fun c => !netlocEnds.contains c)
  | cs => ([], cs)

/-- `urlsplit(url)`; `none` is the `ValueError` of a network location that fails
`_check_bracketed_netloc` or `_checknetloc`. -/
def urlsplit (validNetloc : List Char → Bool) (url : List Char) : Option SplitResult :=
  let scheme := splitScheme (cleanUrl url)
  let netloc := splitNetloc scheme.2
  let fragment := splitFirst '#' netloc.2
  let path := splitFirst '?' fragment.1
  if validNetloc netloc.1 then some ⟨scheme.1, netloc.1, path.1, path.2, fragment.2⟩ else none

/-- `uses_netloc`, without the empty scheme. -/
def usesNetloc : List String :=
  ["ftp", "http", "gopher", "nntp", "telnet", "imap", "wais", "file", "mms", "https", "shttp",
   "snews", "prospero", "rtsp", "rtsps", "rtspu", "rsync", "svn", "svn+ssh", "sftp", "nfs", "git",
   "git+ssh", "ws", "wss", "itms-services"]

/-- The network location and the path. -/
def joinNetloc (r : SplitResult) : List Char :=
  if r.netloc ≠ [] then
    '/' :: '/' :: r.netloc ++
      (if r.path ≠ [] ∧ r.path.head? ≠ some '/' then '/' :: r.path else r.path)
  else if ['/', '/'].isPrefixOf r.path then '/' :: '/' :: r.path
  else if usesNetloc.contains (String.ofList r.scheme) && (r.path = [] || r.path.head? = some '/')
  then '/' :: '/' :: r.path
  else r.path

/-- A part behind its delimiter, if there is one. -/
def delimited (sep : Char) (cs : List Char) : List Char := if cs = [] then [] else sep :: cs

/-- `urlunsplit(parts)`. -/
def urlunsplit (r : SplitResult) : List Char :=
  (if r.scheme = [] then [] else r.scheme ++ [':']) ++ joinNetloc r ++
    (delimited '?' r.query ++ delimited '#' r.fragment)

/-! ## Canonical parts -/

/-- What `urlsplit` makes of a URL, apart from the query. -/
structure SplitResult.Canonical (r : SplitResult) : Prop where
  scheme : r.scheme ≠ [] → isScheme r.scheme = true ∧ r.scheme.map lowerAscii = r.scheme
  netloc : ∀ c ∈ r.netloc, c ∉ netlocEnds
  path : ∀ c ∈ r.path, c ∉ ['?', '#']
  absolute : r.netloc ≠ [] → r.path = [] ∨ r.path.head? = some '/'
  clean : ∀ c ∈ r.netloc ++ r.path ++ r.fragment, c ∉ unsafeChars
  /-- Without a scheme and a network location the path does not look as if it had one. -/
  relative : r.scheme = [] → r.netloc = [] →
    (∀ c, r.path.head? = some c → 32 < c.toNat) ∧
      (':' ∈ r.path → isScheme (r.path.takeWhile (· != ':')) = false)

variable {r : SplitResult} {validNetloc : List Char → Bool}

theorem splitFirst_append {sep : Char} {cs : List Char} (h : sep ∉ cs) (rest : List Char) :
    splitFirst sep (cs ++ delimited sep rest) = (cs, rest) := by
  have hcs : ∀ c ∈ cs, (c != sep) = true := by
    intro c hc
    rw [bne_iff_ne]
    rintro rfl
    exact h hc
  unfold splitFirst delimited
  rw [List.takeWhile_append_of_pos hcs, List.dropWhile_append_of_pos hcs]
  split
  · next hrest => simp [hrest]
  · simp

theorem isSchemeChar_of_isScheme {cs : List Char} (h : isScheme cs = true) :
    ∀ c ∈ cs, isSchemeChar c = true := by
  cases cs with
  | nil => cases h
  | cons c cs => exact List.all_eq_true.mp ((Bool.and_eq_true _ _).mp h).2

theorem lowerAscii_spec {c : Char} (h : isSchemeChar c = true) :
    (isAsciiAlpha c = true → isAsciiAlpha (lowerAscii c) = true) ∧
      isSchemeChar (lowerAscii c) = true ∧ lowerAscii (lowerAscii c) = lowerAscii c := by
  have hall : ∀ n < 128, (isAsciiAlpha (Char.ofNat n) = true →
      isAsciiAlpha (lowerAscii (Char.ofNat n)) = true) ∧
      (isSchemeChar (Char.ofNat n) = true → isSchemeChar (lowerAscii (Char.ofNat n)) = true) ∧
      lowerAscii (lowerAscii (Char.ofNat n)) = lowerAscii (Char.ofNat n) := by
    decide +kernel
  have hlt : c.toNat < 128 := by
    simp only [isSchemeChar, isAsciiAlpha, Bool.or_eq_true, Bool.and_eq_true, decide_eq_true_eq,
      beq_iff_eq] at h
    omega
  have hc := hall c.toNat hlt
  rw [Char.ofNat_toNat] at hc
  exact ⟨hc.1, hc.2.1 h, hc.2.2⟩

theorem isScheme_map_lowerAscii {cs : List Char} (h : isScheme cs = true) :
    isScheme (cs.map lowerAscii) = true ∧ (cs.map lowerAscii).map lowerAscii = cs.map lowerAscii := by
  cases cs with
  | nil => cases h
  | cons c cs =>
    simp only [isScheme, Bool.and_eq_true, List.all_eq_true] at h
    obtain ⟨halpha, hall⟩ := h
    constructor
    · simp only [isScheme, List.map_cons, Bool.and_eq_true, List.all_eq_true]
      refine ⟨(lowerAscii_spec (hall c List.mem_cons_self)).1 halpha, fun d hd => ?_⟩
      rw [← List.map_cons] at hd
      obtain ⟨d', hd', rfl⟩ := List.mem_map.mp hd
      exact (lowerAscii_spec (hall d' hd')).2.1
    · rw [List.map_map]
      exact List.map_congr_left fun d hd => (lowerAscii_spec (hall d hd)).2.2

theorem mem_of_mem_splitFirst {sep : Char} {cs : List Char} :
    (∀ c ∈ (splitFirst sep cs).1, c ∈ cs ∧ c ≠ sep) ∧ ∀ c ∈ (splitFirst sep cs).2, c ∈ cs := by
  refine ⟨fun c hc => ⟨List.takeWhile_subset _ hc, ?_⟩, fun c hc => ?_⟩
  · have hne := List.mem_takeWhile_imp hc
    exact bne_iff_ne.mp hne
  · exact (List.dropWhile_sublist _).mem (List.mem_of_mem_drop hc)

theorem takeWhile_append_of_mem {α : Type} {p : α → Bool} {l : List α} {a : α} (h : a ∈ l)
    (ha : p a = false) (t : List α) : (l ++ t).takeWhile p = l.takeWhile p := by
  induction l with
  | nil => cases h
  | cons b l ih =>
    rw [List.cons_append, List.takeWhile_cons, List.takeWhile_cons]
    split
    · next hb =>
      refine congrArg (b :: ·) (ih ?_)
      rcases List.mem_cons.mp h with rfl | h
      · rw [ha] at hb
        cases hb
      · exact h
    · rfl

theorem mem_unsafeChars {c : Char} : c ∈ unsafeChars ↔ c = '\t' ∨ c = '\r' ∨ c = '\n' := by
  simp [unsafeChars]

/-- The characters removed are control characters. -/
theorem toNat_lt_of_mem_unsafeChars {c : Char} (h : c ∈ unsafeChars) : c.toNat < 32 := by
  rcases mem_unsafeChars.mp h with rfl | rfl | rfl <;> decide

/-- The first character of a clean URL is neither blank nor a control character. -/
theorem head_cleanUrl {url : List Char} {c : Char} (h : (cleanUrl url).head? = some c) :
    32 < c.toNat := by
  unfold cleanUrl at h
  cases hd : url.dropWhile fun c => c.toNat ≤ 32 with
  | nil =>
    rw [hd] at h
    cases h
  | cons b rest =>
    have hb := List.head?_dropWhile_not (fun c : Char => decide (c.toNat ≤ 32)) url
    rw [hd] at hb h
    have hlt : 32 < b.toNat := by simpa using hb
    have hkeep : (!unsafeChars.contains b) = true := by
      rw [Bool.not_eq_true', ← Bool.not_eq_true, List.contains_iff_mem]
      intro hmem
      have := toNat_lt_of_mem_unsafeChars hmem
      omega
    rw [List.filter_cons, if_pos hkeep] at h
    cases h
    exact hlt

theorem mem_cleanUrl {url : List Char} {c : Char} (h : c ∈ cleanUrl url) : c ∉ unsafeChars := by
  simpa using (List.mem_filter.mp h).2

theorem of_splitScheme {url scheme cs : List Char} (h : splitScheme url = (scheme, cs)) :
    (isScheme scheme = true ∧ scheme.map lowerAscii = scheme ∧ ∀ c ∈ cs, c ∈ url) ∨
    (scheme = [] ∧ cs = url ∧ (':' ∈ url → isScheme (url.takeWhile (· != ':')) = false)) := by
  unfold splitScheme at h
  split at h
  · next hif =>
    cases h
    obtain ⟨h1, h2⟩ := isScheme_map_lowerAscii ((Bool.and_eq_true _ _).mp hif).2
    exact Or.inl ⟨h1, h2, fun c hc =>
      (List.dropWhile_sublist _).mem (List.mem_of_mem_drop hc)⟩
  · next hif =>
    cases h
    refine Or.inr ⟨rfl, rfl, fun hmem => ?_⟩
    by_contra hscheme
    exact hif (by simp [hmem, hscheme])

theorem of_splitNetloc {cs netloc cs' : List Char} (h : splitNetloc cs = (netloc, cs')) :
    (∃ rest, cs = '/' :: '/' :: rest ∧ netloc = (rest.takeWhile fun c => !netlocEnds.contains c) ∧
      cs' = rest.dropWhile fun c => !netlocEnds.contains c) ∨
    (netloc = [] ∧ cs' = cs) := by
  unfold splitNetloc at h
  split at h
  · next rest =>
    cases h
    exact Or.inl ⟨rest, rfl, rfl, rfl⟩
  · cases h
    exact Or.inr ⟨rfl, rfl⟩

/-- A path is the start of what follows the network location. -/
theorem prefix_of_path (cs : List Char) : (splitFirst '?' (splitFirst '#' cs).1).1 <+: cs :=
  (List.takeWhile_prefix _).trans (List.takeWhile_prefix _)

theorem mem_path {cs : List Char} {c : Char} (h : c ∈ (splitFirst '?' (splitFirst '#' cs).1).1) :
    c ∈ cs ∧ c ∉ ['?', '#'] := by
  obtain ⟨hc, hquestion⟩ := mem_of_mem_splitFirst.1 c h
  obtain ⟨hc, hhash⟩ := mem_of_mem_splitFirst.1 c hc
  exact ⟨hc, by simp [hquestion, hhash]⟩

/-- The path behind a network location is empty or absolute. -/
theorem head_path_dropWhile (cs : List Char) :
    let path := (splitFirst '?' (splitFirst '#' (cs.dropWhile fun c => !netlocEnds.contains c)).1).1
    path = [] ∨ path.head? = some '/' := by
  intro path
  have hend := List.head?_dropWhile_not (fun c : Char => !netlocEnds.contains c) cs
  have hprefix : path <+: cs.dropWhile fun c => !netlocEnds.contains c := prefix_of_path _
  cases hpath : path with
  | nil => exact Or.inl rfl
  | cons c rest =>
    obtain ⟨t, ht⟩ := hprefix
    rw [hpath, List.cons_append] at ht
    rw [← ht] at hend
    have hc : c ∈ netlocEnds := by simpa using hend
    have hnot : c ∉ ['?', '#'] := (mem_path (hpath ▸ List.mem_cons_self : c ∈ path)).2
    refine Or.inr ?_
    simp only [netlocEnds, List.mem_cons, List.not_mem_nil, or_false, not_or] at hc hnot
    rcases hc with rfl | hc
    · rfl
    · exact absurd hc (by simp [hnot])

theorem urlsplit_eq_some {url : List Char} (h : urlsplit validNetloc url = some r) :
    ∃ scheme cs netloc cs', splitScheme (cleanUrl url) = (scheme, cs) ∧
      splitNetloc cs = (netloc, cs') ∧ validNetloc netloc = true ∧
      r = ⟨scheme, netloc, (splitFirst '?' (splitFirst '#' cs').1).1,
        (splitFirst '?' (splitFirst '#' cs').1).2, (splitFirst '#' cs').2⟩ := by
  unfold urlsplit at h
  dsimp only at h
  split at h
  · next hvalid =>
    cases h
    exact ⟨_, _, _, _, rfl, rfl, hvalid, rfl⟩
  · cases h

/-- An absolute path does not look like more than a path. -/
theorem relative_of_slash {path : List Char} (h : path = [] ∨ path.head? = some '/') :
    (∀ c, path.head? = some c → 32 < c.toNat) ∧
      (':' ∈ path → isScheme (path.takeWhile (· != ':')) = false) := by
  rcases h with rfl | hhead
  · exact ⟨fun _ hc => (nomatch hc), fun hc => (nomatch hc)⟩
  · cases path with
    | nil => cases hhead
    | cons c path =>
      cases hhead
      refine ⟨fun c hc => ?_, fun _ => rfl⟩
      cases hc
      decide

/-- Nor does the start of a URL without a scheme. -/
theorem relative_of_start {url path : List Char} (h : ∃ t, path ++ t = cleanUrl url)
    (hnone : ':' ∈ cleanUrl url → isScheme ((cleanUrl url).takeWhile (· != ':')) = false) :
    (∀ c, path.head? = some c → 32 < c.toNat) ∧
      (':' ∈ path → isScheme (path.takeWhile (· != ':')) = false) := by
  obtain ⟨t, ht⟩ := h
  refine ⟨fun c hc => ?_, fun hc => ?_⟩
  · have hhead : (cleanUrl url).head? = some c := by
      rw [← ht, List.head?_append, hc]
      rfl
    exact head_cleanUrl hhead
  · have hcolon := hnone (by rw [← ht]; exact List.mem_append_left _ hc)
    rw [← ht] at hcolon
    rwa [takeWhile_append_of_mem hc (by decide)] at hcolon

theorem canonical_urlsplit {url : List Char} (h : urlsplit validNetloc url = some r) :
    r.Canonical ∧ validNetloc r.netloc = true := by
  obtain ⟨scheme, cs, netloc, cs', hscheme, hnetloc, hvalid, rfl⟩ := urlsplit_eq_some h
  have hsub : ∀ c ∈ cs, c ∈ cleanUrl url := by
    rcases of_splitScheme hscheme with ⟨-, -, hsub⟩ | ⟨-, rfl, -⟩
    · exact hsub
    · exact fun c hc => hc
  have hsub' : (∀ c ∈ netloc, c ∈ cs ∧ c ∉ netlocEnds) ∧ ∀ c ∈ cs', c ∈ cs := by
    rcases of_splitNetloc hnetloc with ⟨rest, rfl, rfl, rfl⟩ | ⟨rfl, rfl⟩
    · have hrest : ∀ c ∈ rest, c ∈ '/' :: '/' :: rest :=
        fun c hc => List.mem_cons_of_mem _ (List.mem_cons_of_mem _ hc)
      refine ⟨fun c hc => ⟨hrest c (List.takeWhile_subset _ hc), ?_⟩,
        fun c hc => hrest c ((List.dropWhile_sublist _).mem hc)⟩
      simpa using List.mem_takeWhile_imp hc
    · exact ⟨fun _ hc => (nomatch hc), fun c hc => hc⟩
  refine ⟨⟨fun hne => ?_, fun c hc => (hsub'.1 c hc).2, fun c hc => (mem_path hc).2, fun hne => ?_,
    fun c hc => ?_, fun hs hn => ?_⟩, hvalid⟩
  · rcases of_splitScheme hscheme with ⟨h1, h2, -⟩ | ⟨rfl, -, -⟩
    · exact ⟨h1, h2⟩
    · exact absurd rfl hne
  · rcases of_splitNetloc hnetloc with ⟨rest, -, -, rfl⟩ | ⟨rfl, -⟩
    · exact head_path_dropWhile rest
    · exact absurd rfl hne
  · have hc : c ∈ cs := by
      simp only [List.mem_append] at hc
      rcases hc with (hc | hc) | hc
      · exact (hsub'.1 c hc).1
      · exact hsub'.2 c (mem_path hc).1
      · exact hsub'.2 c (mem_of_mem_splitFirst.2 c hc)
    exact mem_cleanUrl (hsub c hc)
  · dsimp only at hs hn ⊢
    subst hs hn
    rcases of_splitNetloc hnetloc with ⟨rest, -, -, rfl⟩ | ⟨-, rfl⟩
    · exact relative_of_slash (head_path_dropWhile rest)
    · rcases of_splitScheme hscheme with ⟨h1, -, -⟩ | ⟨-, rfl, hnone⟩
      · cases h1
      · exact relative_of_start (prefix_of_path (cleanUrl url)) hnone

/-! ## Splitting again -/

/-- The query and the fragment behind their delimiters. -/
def SplitResult.tail (r : SplitResult) : List Char :=
  delimited '?' r.query ++ delimited '#' r.fragment

theorem head_tail {c : Char} (h : r.tail.head? = some c) : c ∈ ['?', '#'] := by
  unfold SplitResult.tail delimited at h
  by_cases hq : r.query = []
  · by_cases hf : r.fragment = []
    · simp [hq, hf] at h
    · simp [hq, hf] at h
      simp [← h]
  · simp [hq] at h
    simp [← h]

/-- A URL has a `//` before its network location and an absolute path, or starts with the path. -/
theorem joinNetloc_cases (h : r.Canonical) :
    (joinNetloc r = '/' :: '/' :: (r.netloc ++ r.path) ∧
      (r.path = [] ∨ r.path.head? = some '/')) ∨
    (r.netloc = [] ∧ joinNetloc r = r.path ∧ ¬ ['/', '/'].isPrefixOf r.path = true) := by
  unfold joinNetloc
  by_cases hnetloc : r.netloc = []
  · rw [if_neg (not_not_intro hnetloc), hnetloc]
    split
    · next hpath =>
      refine Or.inl ⟨rfl, Or.inr ?_⟩
      obtain ⟨t, ht⟩ := List.isPrefixOf_iff_prefix.mp hpath
      rw [← ht]
      rfl
    · next hpath =>
      split
      · next huses =>
        refine Or.inl ⟨rfl, ?_⟩
        simpa using ((Bool.and_eq_true _ _).mp huses).2
      · exact Or.inr ⟨rfl, rfl, hpath⟩
  · have habsolute := h.absolute hnetloc
    rw [if_pos hnetloc, if_neg fun hpath => habsolute.elim hpath.1 hpath.2]
    exact Or.inl ⟨rfl, habsolute⟩

theorem splitScheme_scheme {scheme : List Char} (his : isScheme scheme = true)
    (hlower : scheme.map lowerAscii = scheme) (cs : List Char) :
    splitScheme (scheme ++ ':' :: cs) = (scheme, cs) := by
  have hchars : ∀ c ∈ scheme, (c != ':') = true := by
    intro c hc
    rw [bne_iff_ne]
    rintro rfl
    exact absurd (isSchemeChar_of_isScheme his _ hc) (by decide)
  unfold splitScheme
  rw [List.takeWhile_append_of_pos hchars, List.dropWhile_append_of_pos hchars,
    List.takeWhile_cons_of_neg (by decide), List.dropWhile_cons_of_neg (by decide),
    List.append_nil, if_pos (by simp [his]), hlower, List.drop_one, List.tail_cons]

/-- No scheme reaches over a path that has none into the query or the fragment. -/
theorem isScheme_path_append {path rest : List Char}
    (hpath : ':' ∈ path → isScheme (path.takeWhile (· != ':')) = false)
    (hrest : ∀ c, rest.head? = some c → c ∈ ['?', '#']) (hcolon : ':' ∈ path ++ rest) :
    isScheme ((path ++ rest).takeWhile (· != ':')) = false := by
  by_cases hmem : ':' ∈ path
  · rw [takeWhile_append_of_mem hmem (by decide)]
    exact hpath hmem
  · have hchars : ∀ c ∈ path, (c != ':') = true := by
      intro c hc
      rw [bne_iff_ne]
      rintro rfl
      exact hmem hc
    cases rest with
    | nil => exact absurd hcolon (by simpa using hmem)
    | cons d rest =>
      -- the delimiter is in no scheme
      have hnot : isSchemeChar d = false ∧ (d != ':') = true := by
        have hd := hrest d rfl
        simp only [List.mem_cons, List.not_mem_nil, or_false] at hd
        rcases hd with rfl | rfl <;> decide
      rw [List.takeWhile_append_of_pos hchars, List.takeWhile_cons, if_pos hnot.2]
      by_contra his
      have hd := isSchemeChar_of_isScheme (by simpa using his) d (by simp)
      rw [hnot.1] at hd
      cases hd

theorem splitScheme_join (h : r.Canonical) :
    splitScheme ((if r.scheme = [] then [] else r.scheme ++ [':']) ++ joinNetloc r ++ r.tail) =
      (r.scheme, joinNetloc r ++ r.tail) := by
  by_cases hscheme : r.scheme = []
  · rw [if_pos hscheme, List.nil_append, hscheme]
    unfold splitScheme
    refine if_neg fun hif => ?_
    obtain ⟨hcolon, his⟩ := (Bool.and_eq_true _ _).mp hif
    rw [List.contains_iff_mem] at hcolon
    rcases joinNetloc_cases h with ⟨hjoin, -⟩ | ⟨hnetloc, hjoin, -⟩
    · rw [hjoin] at his
      cases his
    · rw [hjoin] at his hcolon
      rw [isScheme_path_append (h.relative hscheme hnetloc).2 (fun _ => head_tail) hcolon] at his
      cases his
  · obtain ⟨his, hlower⟩ := h.scheme hscheme
    rw [if_neg hscheme, List.append_assoc, List.append_assoc, List.singleton_append]
    exact splitScheme_scheme his hlower _

theorem splitNetloc_slashes {netloc cs : List Char} (hnetloc : ∀ c ∈ netloc, c ∉ netlocEnds)
    (hend : ∀ c, cs.head? = some c → c ∈ netlocEnds) :
    splitNetloc ('/' :: '/' :: (netloc ++ cs)) = (netloc, cs) := by
  have hchars : ∀ c ∈ netloc, (!netlocEnds.contains c) = true := by
    intro c hc
    simpa using hnetloc c hc
  have hstop : cs.takeWhile (fun c => !netlocEnds.contains c) = [] ∧
      cs.dropWhile (fun c => !netlocEnds.contains c) = cs := by
    cases cs with
    | nil => exact ⟨rfl, rfl⟩
    | cons c cs =>
      have hc : (!netlocEnds.contains c) = false := by simpa using hend c rfl
      rw [List.takeWhile_cons, List.dropWhile_cons, hc]
      exact ⟨rfl, rfl⟩
  show (_, _) = _
  rw [List.takeWhile_append_of_pos hchars, List.dropWhile_append_of_pos hchars, hstop.1, hstop.2,
    List.append_nil]

/-- Two slashes at the start are both in the path: no delimiter is one. -/
theorem isPrefixOf_of_append {path rest cs : List Char}
    (hrest : ∀ c, rest.head? = some c → c ∈ ['?', '#']) (h : path ++ rest = '/' :: '/' :: cs) :
    ['/', '/'].isPrefixOf path = true := by
  have hslash : ∀ t, rest ≠ '/' :: t := by
    rintro t rfl
    exact absurd (hrest '/' rfl) (by decide)
  cases path with
  | nil => exact absurd h (hslash _)
  | cons a path =>
    cases path with
    | nil => exact absurd (List.cons.inj h).2 (hslash _)
    | cons b path =>
      obtain ⟨ha, h⟩ := List.cons.inj h
      obtain ⟨hb, -⟩ := List.cons.inj h
      rw [ha, hb]
      rfl

theorem splitNetloc_join (h : r.Canonical) :
    splitNetloc (joinNetloc r ++ r.tail) = (r.netloc, r.path ++ r.tail) := by
  rcases joinNetloc_cases h with ⟨hjoin, hpath⟩ | ⟨hnetloc, hjoin, hpath⟩
  · rw [hjoin, List.cons_append, List.cons_append, List.append_assoc]
    refine splitNetloc_slashes h.netloc fun c hc => ?_
    rcases hpath with hpath | hpath
    · rw [hpath, List.nil_append] at hc
      exact List.mem_cons_of_mem _ (head_tail hc)
    · rw [List.head?_append, hpath] at hc
      cases hc
      exact List.mem_cons_self
  · rw [hjoin, hnetloc]
    unfold splitNetloc
    split
    · next hslashes => exact absurd (isPrefixOf_of_append (fun _ => head_tail) hslashes) hpath
    · rfl

theorem mem_delimited {sep c : Char} {cs : List Char} (h : c ∈ delimited sep cs) :
    c = sep ∨ c ∈ cs := by
  unfold delimited at h
  split at h
  · cases h
  · exact List.mem_cons.mp h

theorem mem_joinNetloc (h : r.Canonical) {c : Char} (hc : c ∈ joinNetloc r) :
    c = '/' ∨ c ∈ r.netloc ∨ c ∈ r.path := by
  rcases joinNetloc_cases h with ⟨hjoin, -⟩ | ⟨-, hjoin, -⟩
  · rw [hjoin] at hc
    simp only [List.mem_cons, List.mem_append] at hc
    rcases hc with hc | hc | hc | hc
    · exact Or.inl hc
    · exact Or.inl hc
    · exact Or.inr (Or.inl hc)
    · exact Or.inr (Or.inr hc)
  · rw [hjoin] at hc
    exact Or.inr (Or.inr hc)

theorem isSchemeChar_clean {c : Char} (h : isSchemeChar c = true) : c ∉ unsafeChars := by
  intro hmem
  rcases mem_unsafeChars.mp hmem with rfl | rfl | rfl <;> exact absurd h (by decide)

theorem mem_urlunsplit (h : r.Canonical) (hquery : ∀ c ∈ r.query, c ∉ unsafeChars) {c : Char}
    (hc : c ∈ urlunsplit r) : c ∉ unsafeChars := by
  have hdelimiter : ∀ d ∈ [':', '/', '?', '#'], d ∉ unsafeChars := by
    intro d hd hmem
    have hgt : 32 < d.toNat := by
      simp only [List.mem_cons, List.not_mem_nil, or_false] at hd
      rcases hd with rfl | rfl | rfl | rfl <;> decide
    have := toNat_lt_of_mem_unsafeChars hmem
    omega
  have hparts : ∀ d, d ∈ r.netloc ∨ d ∈ r.path ∨ d ∈ r.fragment → d ∉ unsafeChars := by
    intro d hd
    refine h.clean d ?_
    rw [List.mem_append, List.mem_append, or_assoc]
    exact hd
  unfold urlunsplit at hc
  rcases List.mem_append.mp hc with hc | hc
  · rcases List.mem_append.mp hc with hc | hc
    · split at hc
      · cases hc
      · next hscheme =>
        rcases List.mem_append.mp hc with hc | hc
        · exact isSchemeChar_clean (isSchemeChar_of_isScheme (h.scheme hscheme).1 c hc)
        · rw [List.mem_singleton.mp hc]
          exact hdelimiter _ (by decide)
    · rcases mem_joinNetloc h hc with rfl | hc | hc
      · exact hdelimiter _ (by decide)
      · exact hparts c (Or.inl hc)
      · exact hparts c (Or.inr (Or.inl hc))
  · rcases List.mem_append.mp hc with hc | hc
    · rcases mem_delimited hc with rfl | hc
      · exact hdelimiter _ (by decide)
      · exact hquery c hc
    · rcases mem_delimited hc with rfl | hc
      · exact hdelimiter _ (by decide)
      · exact hparts c (Or.inr (Or.inr hc))

theorem head_urlunsplit (h : r.Canonical) {c : Char} (hc : (urlunsplit r).head? = some c) :
    32 < c.toNat := by
  unfold urlunsplit at hc
  rw [← SplitResult.tail] at hc
  by_cases hscheme : r.scheme = []
  · rw [if_pos hscheme, List.nil_append] at hc
    rcases joinNetloc_cases h with ⟨hjoin, -⟩ | ⟨hnetloc, hjoin, -⟩
    · rw [hjoin] at hc
      cases hc
      decide
    · rw [hjoin, List.head?_append] at hc
      cases hp : r.path.head? with
      | none =>
        rw [hp, Option.none_or] at hc
        have hd := head_tail hc
        simp only [List.mem_cons, List.not_mem_nil, or_false] at hd
        rcases hd with rfl | rfl <;> decide
      | some d =>
        rw [hp, Option.some_or] at hc
        cases hc
        exact (h.relative hscheme hnetloc).1 c hp
  · rw [if_neg hscheme] at hc
    have his := (h.scheme hscheme).1
    cases hcs : r.scheme with
    | nil => exact absurd hcs hscheme
    | cons d cs =>
      rw [hcs] at hc his
      cases hc
      have halpha := ((Bool.and_eq_true _ _).mp his).1
      simp only [isAsciiAlpha, Bool.or_eq_true, Bool.and_eq_true, decide_eq_true_eq] at halpha
      omega

/-- Joined parts are a clean URL. -/
theorem cleanUrl_urlunsplit (h : r.Canonical) (hquery : ∀ c ∈ r.query, c ∉ unsafeChars) :
    cleanUrl (urlunsplit r) = urlunsplit r := by
  have hdrop : (urlunsplit r).dropWhile (fun c => c.toNat ≤ 32) = urlunsplit r := by
    cases hu : urlunsplit r with
    | nil => rfl
    | cons c cs =>
      have hc := head_urlunsplit h (c := c) (by rw [hu]; rfl)
      exact List.dropWhile_cons_of_neg (by simpa using hc)
  unfold cleanUrl
  rw [hdrop, List.filter_eq_self]
  intro c hc
  simpa using mem_urlunsplit h hquery hc

/-- Canonical parts are read back, whatever the query between its delimiters. -/
theorem urlsplit_urlunsplit (h : r.Canonical) (hvalid : validNetloc r.netloc = true)
    (hquery : ∀ c ∈ r.query, c ≠ '#' ∧ c ∉ unsafeChars) :
    urlsplit validNetloc (urlunsplit r) = some r := by
  have hhash : '#' ∉ r.path ++ delimited '?' r.query := by
    intro hmem
    rcases List.mem_append.mp hmem with hmem | hmem
    · exact h.path _ hmem (by decide)
    · rcases mem_delimited hmem with hc | hc
      · exact absurd hc (by decide)
      · exact (hquery _ hc).1 rfl
  have hquestion : '?' ∉ r.path := fun hmem => h.path _ hmem (by decide)
  have hclean := cleanUrl_urlunsplit h fun c hc => (hquery c hc).2
  unfold urlsplit
  rw [hclean, urlunsplit]
  dsimp only
  rw [← SplitResult.tail, splitScheme_join h]
  dsimp only
  rw [splitNetloc_join h]
  dsimp only
  rw [SplitResult.tail, ← List.append_assoc, splitFirst_append hhash]
  dsimp only
  rw [splitFirst_append hquestion, if_pos hvalid]

end Py
