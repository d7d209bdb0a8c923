import LandCap.Wiki.Basic

/-!
# The query for a landmark

`WikiModel.ofTitle` appends the title to the API's URL and writes every space as `%20`; all other
characters go into the URL as they are.  `NamesExactly` says what the URL is for: it is a URL, and
its query has the title as the value of `titles` and the API's other parameters besides.

`namesExactly_iff` says for which titles that is so: those that consist of spaces and of characters
that stand for themselves in a query, without the ampersand.  A character outside the alphabet of
URLs makes the text no URL, a number sign ends the query, an ampersand ends the parameter, and a
percent sign is read as the beginning of a triple.  The last one is the hard case, since the triple
may be well formed: the value then decodes, but to a text that is too short.
-/

set_option autoImplicit false

namespace LandCap

open Url

/-- The parameters of the query for a title. -/
def queryFor (title : String) : List (String × Option String) :=
  [("format", some "json"), ("action", some "query"), ("prop", some "extracts"), ("exintro", none),
    ("explaintext", none), ("redirects", some "1"), ("titles", some title)]

/-- The model's URL is one, and asks for exactly this title. -/
def NamesExactly (title : String) : Prop :=
  ∃ url, Url.parse (WikiModel.ofTitle title).baseUrl.toList = some url ∧
    url.query.bind queryItems = some (queryFor title)

/-- The title with its spaces encoded. -/
def encode (title : List Char) : List Char := replacingOccurrences ' ' "%20".toList title

theorem encode_space (title : List Char) :
    encode (' ' :: title) = '%' :: '2' :: '0' :: encode title := by
  show "%20".toList ++ encode title = '%' :: '2' :: '0' :: encode title
  rw [show "%20".toList = ['%', '2', '0'] by decide]
  rfl

theorem encode_cons {c : Char} (h : c ≠ ' ') (title : List Char) :
    encode (c :: title) = c :: encode title := by
  show (if c = ' ' then "%20".toList else [c]) ++ encode title = c :: encode title
  rw [if_neg h, List.singleton_append]

/-! ## Cutting the URL -/

/-- The API's query up to the value of `titles`. -/
def apiQuery : List Char :=
  "format=json&action=query&prop=extracts&exintro&explaintext&redirects=1&titles=".toList

/-- The components of the URL whose query ends in `value`. -/
def apiParts (value : List Char) (fragment : Option (List Char)) : Parts where
  scheme := "https".toList
  authority := "en.wikipedia.org".toList
  path := some "w/api.php".toList
  query := some (apiQuery ++ value)
  fragment := fragment

theorem parse_api (value : List Char) :
    Url.parse (apiUrl.toList ++ value) =
      if (apiParts (cut '#' value).1 (cut '#' value).2).valid then
        some (apiParts (cut '#' value).1 (cut '#' value).2)
      else none := by
  have hapi : apiUrl.toList = "https://en.wikipedia.org/w/api.php".toList ++ '?' :: apiQuery := by
    decide +kernel
  have hhash : '#' ∉ apiUrl.toList := by decide +kernel
  have hmark : '?' ∉ "https://en.wikipedia.org/w/api.php".toList := by decide +kernel
  have hscheme : cut ':' "https://en.wikipedia.org/w/api.php".toList
      = ("https".toList, some ('/' :: '/' :: "en.wikipedia.org/w/api.php".toList)) := by
    decide +kernel
  have hpath : cut '/' "en.wikipedia.org/w/api.php".toList
      = ("en.wikipedia.org".toList, some "w/api.php".toList) := by decide +kernel
  rw [Url.parse, cut_append hhash, hapi, List.append_assoc, List.cons_append]
  simp only [cut_append_cons hmark, hscheme, hpath]
  rw [apiParts]

theorem valid_apiParts (value : List Char) (fragment : Option (List Char)) :
    (apiParts value fragment).valid = true ↔
      Url.valid isQueryChar value = true ∧ fragment.all (Url.valid isQueryChar) = true := by
  have hall : (apiQuery.all fun c ↦ isQueryChar c && c != '%') = true := by decide +kernel
  have hapi : ∀ c ∈ apiQuery, isQueryChar c = true ∧ c ≠ '%' := by
    intro c hc
    have hok := List.all_eq_true.mp hall c hc
    rw [Bool.and_eq_true, bne_iff_ne] at hok
    exact hok
  have hrest : (validScheme "https".toList &&
      Url.valid (fun c ↦ isUnreserved c || isSubDelim c || ":@".toList.contains c)
        "en.wikipedia.org".toList &&
      Url.valid (fun c ↦ isPathChar c || c = '/') "w/api.php".toList) = true := by decide +kernel
  rw [Parts.valid, apiParts]
  simp only [Option.all_some, valid_append hapi, hrest, Bool.true_and, Bool.and_eq_true]

theorem ofTitle_baseUrl (title : String) :
    (WikiModel.ofTitle title).baseUrl.toList = apiUrl.toList ++ encode title.toList := by
  rw [WikiModel.ofTitle, String.toList_append, String.toList_ofList, encode]

/-! ## Reading the query -/

theorem decodeItem_titles (value : List Char) :
    decodeItem ("titles=".toList ++ value)
      = (decodeComponent value).map fun title ↦ ("titles", some title) := by
  have htitles : "titles=".toList = "titles".toList ++ ['='] := by decide
  have hname : decodeComponent "titles".toList = some "titles" := by decide +kernel
  rw [decodeItem, htitles, List.append_assoc, List.singleton_append,
    cut_append_cons (by decide)]
  simp only [hname, Option.bind_eq_bind, Option.bind_some, Option.pure_def, Option.map_eq_bind]
  rfl

/-- **The parameters of the model's query**: the API's own ones, then the value of `titles` up to
the first ampersand, then whatever comes after it. -/
theorem queryItems_api {value : List Char} {title : String} :
    queryItems (apiQuery ++ value) = some (queryFor title) ↔
      decodeComponent (cut '&' value).1 = some title ∧ value.splitOn '&' = [(cut '&' value).1] := by
  have hapi : apiQuery
      = "format=json&action=query&prop=extracts&exintro&explaintext&redirects=1".toList
        ++ '&' :: "titles=".toList := by decide +kernel
  have hown : queryItems
      "format=json&action=query&prop=extracts&exintro&explaintext&redirects=1".toList
      = some [("format", some "json"), ("action", some "query"), ("prop", some "extracts"),
        ("exintro", none), ("explaintext", none), ("redirects", some "1")] := by decide +kernel
  obtain ⟨rest, hrest⟩ := splitOn_eq_cut_cons '&' value
  have htitles : ("titles=".toList ++ value).splitOn '&'
      = ("titles=".toList ++ (cut '&' value).1) :: rest := by
    have hno : '&' ∉ "titles=".toList := by decide
    rw [splitOn_append hno, hrest, List.modifyHead_cons]
  rw [hapi, List.append_assoc, List.cons_append, queryItems_append, hown, queryItems, htitles,
    List.mapM_cons, decodeItem_titles, hrest]
  cases hv : decodeComponent (cut '&' value).1 with
  | none => simp
  | some v =>
    cases rest with
    | nil => simp [queryFor]
    | cons item rest => simp [queryFor, Option.bind_eq_some_iff]

/-! ## Encoding the title -/

theorem length_encode (title : List Char) :
    (encode title).length = title.length + 2 * title.count ' ' := by
  induction title with
  | nil => rfl
  | cons c title ih =>
    rcases eq_or_ne c ' ' with rfl | hc
    · rw [encode_space, List.count_cons_self]
      simp only [List.length_cons, ih]
      omega
    · rw [encode_cons hc, List.count_cons_of_ne hc, List.length_cons, List.length_cons, ih]
      omega

theorem count_encode (title : List Char) :
    (encode title).count '%' = title.count '%' + title.count ' ' := by
  induction title with
  | nil => rfl
  | cons c title ih =>
    rcases eq_or_ne c ' ' with rfl | hc
    · rw [encode_space, List.count_cons_self, List.count_cons_self,
        List.count_cons_of_ne (by decide), List.count_cons_of_ne (by decide),
        List.count_cons_of_ne (by decide), ih]
      omega
    · rw [encode_cons hc, List.count_cons, List.count_cons, List.count_cons_of_ne hc, ih]
      omega

theorem mem_encode {c : Char} {title : List Char} (h : c ∈ encode title) :
    c ∈ title ∨ c ∈ "%20".toList := by
  obtain ⟨d, hd, hc⟩ := List.mem_flatMap.mp h
  split at hc
  · exact Or.inr hc
  · rw [List.mem_singleton.mp hc]
    exact Or.inl hd

/-- Cutting the encoded title is encoding a title that has been cut. -/
theorem cut_encode {sep : Char} (hs : sep ∉ ['%', '2', '0']) (hb : ' ' ≠ sep) (title : List Char) :
    cut sep (encode title) = (encode (cut sep title).1, (cut sep title).2.map encode) := by
  induction title with
  | nil => rfl
  | cons c title ih =>
    rcases eq_or_ne c ' ' with rfl | hc
    · have hcut := cut_append hs (encode title)
      rw [ih] at hcut
      have hblank : cut sep (' ' :: title) = (' ' :: (cut sep title).1, (cut sep title).2) := by
        rw [cut, if_neg hb]
      rw [hblank, encode_space, encode_space]
      exact hcut
    · rw [encode_cons hc, cut, cut, ih]
      split
      · rfl
      · rw [encode_cons hc]

/-- The encoded title stands for the bytes of the title. -/
theorem percentDecode_encode {title : List Char} (h : '%' ∉ title) :
    percentDecode (encode title) = some (title.flatMap String.utf8EncodeChar) := by
  induction title with
  | nil => rfl
  | cons c title ih =>
    rw [List.mem_cons, not_or] at h
    rcases eq_or_ne c ' ' with rfl | hc
    · rw [encode_space, percentDecode_triple (m := 2) (n := 0) (by decide) (by decide), ih h.2]
      rfl
    · have hp : '%' ∉ [c] := by
        rw [List.mem_singleton]
        exact h.1
      rw [encode_cons hc, ← List.singleton_append, percentDecode_append hp, ih h.2, Option.map_some,
        List.flatMap_singleton, List.flatMap_cons]

/-- Where the title has no percent sign, its characters are checked one by one. -/
theorem valid_encode_iff {title : List Char} (h : '%' ∉ title) :
    Url.valid isQueryChar (encode title) = true ↔ ∀ c ∈ title, c = ' ' ∨ isQueryChar c = true := by
  induction title with
  | nil => simp [encode, replacingOccurrences, Url.valid]
  | cons c title ih =>
    rw [List.mem_cons, not_or] at h
    rcases eq_or_ne c ' ' with rfl | hc
    · rw [encode_space, valid_triple (by decide) (by decide), ih h.2]
      simp
    · rw [encode_cons hc, Url.valid.eq_def]
      simp only [if_neg (Ne.symm h.1), Bool.and_eq_true, ih h.2, List.forall_mem_cons, hc, false_or]

/-! ## The exact titles -/

/-- **A value that decodes to the title is the whole title**: nothing has been cut off it, and it
has no percent sign. -/
theorem eq_of_decode {title : String} {p : List Char} (hp : p.length ≤ title.toList.length)
    (hsize : ∀ c ∈ encode p, c.utf8Size = 1) (h : decodeComponent (encode p) = some title) :
    p.length = title.toList.length ∧ '%' ∉ p := by
  rw [decodeComponent_eq_some] at h
  have hlen := length_percentDecode h hsize
  rw [length_encode, count_encode] at hlen
  have hle := length_le_length_encode title.toList
  rw [← List.count_eq_zero]
  omega

/-- The title consists of spaces and of characters that stand for themselves in a query. -/
def Plain (title : String) : Prop :=
  ∀ c ∈ title.toList, c = ' ' ∨ isQueryChar c = true ∧ c ≠ '&'

instance (title : String) : Decidable (Plain title) := List.decidableBAll _ _

theorem namesExactly_of_plain {title : String} (h : Plain title) : NamesExactly title := by
  have hno : ∀ {sep}, isQueryChar sep = false ∨ sep = '&' → sep ≠ ' ' → sep ∉ title.toList := by
    intro sep hsep hb hm
    rcases h sep hm with hc | hc
    · exact hb hc
    · rcases hsep with hsep | hsep
      · exact absurd hc.1 (by simp [hsep])
      · exact hc.2 hsep
  have hhash : '#' ∉ title.toList := hno (Or.inl (by decide)) (by decide)
  have hamp : '&' ∉ title.toList := hno (Or.inr rfl) (by decide)
  have hpct : '%' ∉ title.toList := hno (Or.inl (by decide)) (by decide)
  have hvalid : (apiParts (encode title.toList) none).valid = true := by
    rw [valid_apiParts]
    exact ⟨(valid_encode_iff hpct).mpr fun c hc ↦ (h c hc).imp id And.left, rfl⟩
  refine ⟨apiParts (encode title.toList) none, ?_, ?_⟩
  · rw [ofTitle_baseUrl, parse_api, cut_encode (by decide) (by decide), cut_of_notMem hhash]
    exact if_pos hvalid
  · have hcut : cut '&' (encode title.toList) = (encode title.toList, none) := by
      rw [cut_encode (by decide) (by decide), cut_of_notMem hamp]
      rfl
    have hmem : '&' ∉ encode title.toList := by
      intro hm
      rcases mem_encode hm with hm | hm
      · exact hamp hm
      · exact absurd hm (by decide)
    rw [apiParts, Option.bind_some, queryItems_api, hcut, decodeComponent_eq_some,
      percentDecode_encode hpct]
    exact ⟨rfl, List.splitOn_eq_singleton hmem⟩

theorem plain_of_namesExactly {title : String} (h : NamesExactly title) : Plain title := by
  obtain ⟨url, hparse, hquery⟩ := h
  rw [ofTitle_baseUrl, parse_api, cut_encode (by decide) (by decide)] at hparse
  split at hparse
  case isFalse => exact absurd hparse (by simp)
  rename_i hvalid
  obtain rfl := Option.some.inj hparse
  rw [valid_apiParts] at hvalid
  have hsize := utf8Size_of_valid (fun c hc ↦ utf8Size_of_isQueryChar hc) hvalid.1
  rw [apiParts, Option.bind_some, queryItems_api, cut_encode (by decide) (by decide)] at hquery
  -- `p` is the title up to the first number sign, `q` the part of it up to the first ampersand
  set p := (cut '#' title.toList).1 with hp
  set q := (cut '&' p).1 with hq
  have hple := length_cut_le '#' title.toList
  have hqle := length_cut_le '&' p
  have hsizeq : ∀ c ∈ encode q, c.utf8Size = 1 := by
    intro c hc
    have hcut : (cut '&' (encode p)).1 = encode q := by rw [cut_encode (by decide) (by decide)]
    exact hsize c (mem_of_mem_cut (hcut ▸ hc))
  obtain ⟨hlen, hpct⟩ : q.length = title.toList.length ∧ '%' ∉ q :=
    eq_of_decode (hqle.1.trans hple.1) hsizeq hquery.1
  have hhash : '#' ∉ title.toList := hple.2 (le_antisymm hple.1 (hlen ▸ hqle.1))
  have hpt : p = title.toList := by rw [hp, cut_of_notMem hhash]
  have hamp : '&' ∉ p := hqle.2 (le_antisymm hqle.1 (by rw [hlen, hpt]))
  have hqp : q = p := by rw [hq, cut_of_notMem hamp]
  rw [hqp, hpt] at hpct
  rw [hpt] at hvalid hamp
  intro c hc
  exact ((valid_encode_iff hpct).mp hvalid.1 c hc).imp id fun hok ↦
    ⟨hok, fun he ↦ hamp (he ▸ hc)⟩

/-- The query for `Marks & Spencer` asks for `Marks `. -/
theorem not_namesExactly : ¬∀ title : String, NamesExactly title :=
  fun h ↦ absurd (plain_of_namesExactly (h "Marks & Spencer")) (by decide +kernel)

/-- **The query names exactly the detected landmark** if and only if the landmark's name consists
of spaces and of characters that stand for themselves in a query, without the ampersand. -/
theorem namesExactly_iff (title : String) : NamesExactly title ↔ Plain title :=
  ⟨plain_of_namesExactly, namesExactly_of_plain⟩

end LandCap
