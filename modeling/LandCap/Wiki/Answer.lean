import LandCap.Wiki.Sentences

/-!
# How often an article is answered

The callback of `getWikiContent` is what stops the spinner of the screen, so it has to be called on
every path, and once.  `parse` reaches it only inside a loop, which is left after its first turn;
`callsOfPages` is that loop as the code has it, with every call it makes, and it makes at most one
(`callsOfPages_eq`).  Every path around the loop makes none: a title that is no URL, an answer
without data or that is not JSON, and an answer without pages.

The page that decides is the first one, whether it has an extract or not.  `answers_once_iff` puts
both together.
-/

set_option autoImplicit false

namespace LandCap

/-! ## The calls -/

/-- The loop of `parse`, with all its calls of the callback in order. -/
def callsOfPages (pages : List JSON) : List String := Id.run do
  let mut calls := []
  for subJson in pages do
    match (subJson.get "extract").string? with
    | some name => calls := calls ++ [withoutNewlines name]
    | none => calls := calls ++ ["No Description"]
    break
  return calls

/-- The calls of the callback of `parse`. -/
def WikiModel.parseCalls (model : WikiModel) (response : Response) : List String :=
  if (Url.parse model.baseUrl.toList).isNone then []
  else
    match response with
    | .json json => callsOfPages ((json.get "query").get "pages").elements
    | _ => []

/-- What `getWikiContent` makes of a text; `none` when the program stops. -/
def contentsOf (seg : Segmentation) (tagger : Tagger seg) (content : String) :
    Option (List WikiContentModel) :=
  (linguisticTag (seg.characters content.toList) (tagger content.toList).tokens).map fun results ↦
    results.map fun text ↦ { text := String.ofList text, isSelected := false }

/-- The calls of the callback of `getWikiContent`, with a `none` where the program stops instead. -/
def WikiModel.answers (seg : Segmentation) (tagger : Tagger seg) (model : WikiModel)
    (response : Response) : List (Option (List WikiContentModel)) :=
  (model.parseCalls response).map (contentsOf seg tagger)

/-! ## Answering exactly once -/

/-- The values of `query.pages`. -/
def pagesOf : Response → List JSON
  | .json json => ((json.get "query").get "pages").elements
  | _ => []

/-- The extracts of the pages that have one. -/
def extractsOf (response : Response) : List String :=
  (pagesOf response).filterMap fun page ↦ (page.get "extract").string?

/-- The text for a page. -/
def pageText (page : JSON) : String :=
  ((page.get "extract").string?.map withoutNewlines).getD "No Description"

/-- The callback is called once, and with the sentences of the extract if only one page has one. -/
structure AnswersOnce (seg : Segmentation) (tagger : Tagger seg) (model : WikiModel)
    (response : Response) : Prop where
  once : ∃ all, model.answers seg tagger response = [some all]
  extract : ∀ extract, extractsOf response = [extract] →
    model.answers seg tagger response = [contentsOf seg tagger (withoutNewlines extract)]

/-- The request can be made, there is a page in the answer, and the first page has the text of the
only extract. -/
structure Answerable (model : WikiModel) (response : Response) : Prop where
  url : (Url.parse model.baseUrl.toList).isSome = true
  page : pagesOf response ≠ []
  first : ∀ extract, extractsOf response = [extract] →
    (pagesOf response).head?.map pageText = some (withoutNewlines extract)

/-! ## What the loop does -/

/-- **The loop answers at most once**: `break` leaves it after the first page. -/
theorem callsOfPages_eq (pages : List JSON) :
    callsOfPages pages = (contentOfPages pages).toList := by
  cases pages with
  | nil => rfl
  | cons page rest =>
    simp only [callsOfPages, contentOfPages, List.forIn_cons]
    cases (page.get "extract").string? <;> rfl

example : callsOfPages [.object [("pageid", .number)], .object [("extract", .string "It floats.")]]
    = ["No Description"] := rfl

theorem contentOfPages_eq (pages : List JSON) :
    contentOfPages pages = pages.head?.map pageText := by
  cases pages with
  | nil => rfl
  | cons page rest =>
    rw [contentOfPages, List.head?_cons, Option.map_some, pageText]
    cases (page.get "extract").string? <;> rfl

variable {model : WikiModel} {response : Response} {seg : Segmentation} (tagger : Tagger seg)

theorem parseCalls_eq : model.parseCalls response = (model.parse response).toList := by
  rw [WikiModel.parseCalls.eq_def, WikiModel.parse.eq_def]
  by_cases hurl : (Url.parse model.baseUrl.toList).isNone
  · rw [if_pos hurl, if_pos hurl]
    rfl
  · rw [if_neg hurl, if_neg hurl]
    cases response with
    | noData | notJSON => rfl
    | json json => exact callsOfPages_eq _

/-- The calls are what becomes of the request. -/
theorem answers_eq : model.answers seg tagger response =
    match model.getWikiContent seg tagger response with
    | .silence => []
    | .trap => [none]
    | .contents all => [some all] := by
  rw [WikiModel.answers, parseCalls_eq, WikiModel.getWikiContent]
  cases hparse : model.parse response with
  | none => rfl
  | some content =>
    simp only [Option.toList_some, List.map_cons, List.map_nil, contentsOf]
    cases linguisticTag (seg.characters content.toList) (tagger content.toList).tokens <;> rfl

/-- Without a URL nothing is called, and otherwise the first page is answered. -/
theorem answers_of_url (hurl : (Url.parse model.baseUrl.toList).isSome = true) :
    model.answers seg tagger response =
      ((pagesOf response).head?.map pageText).toList.map (contentsOf seg tagger) := by
  have hcalls : model.parseCalls response = callsOfPages (pagesOf response) := by
    rw [WikiModel.parseCalls.eq_def, if_neg (by rw [← Option.not_isSome, hurl]; decide)]
    cases response with
    | noData | notJSON => exact (callsOfPages_eq []).symm
    | json json => rfl
  rw [WikiModel.answers, hcalls, callsOfPages_eq, contentOfPages_eq]

theorem exists_contentsOf (content : String) : ∃ all, contentsOf seg tagger content = some all := by
  rw [contentsOf, linguisticTag_eq]
  exact ⟨_, rfl⟩

/-! ## Telling two texts apart -/

/-- A tagger that finds a sentence in one text only. -/
def taggerOf (marked : List Char) : Tagger .scalars := fun text ↦
  { tokens := if text = marked ∧ text ≠ [] then [⟨"SentenceTerminator", 0, 1⟩] else []
    nonempty := by split_ifs <;> simp
    inside := by
      split_ifs with h
      · simpa [Segmentation.scalars, Nat.one_le_iff_ne_zero] using h.2
      · simp
    ascending := by split_ifs <;> simp }

theorem contentsOf_marked {marked : String} (h : marked ≠ "") :
    contentsOf .scalars (taggerOf marked.toList) marked ≠ some [] := by
  have hne : marked.toList ≠ [] := fun hnil ↦ h (String.toList_inj.mp hnil)
  obtain ⟨c, text, htext⟩ := List.exists_cons_of_ne_nil hne
  rw [contentsOf, taggerOf, htext]
  simp [linguisticTag, terminators, cutSentences, Segmentation.scalars]

theorem contentsOf_of_ne {marked content : String} (h : content ≠ marked) :
    contentsOf .scalars (taggerOf marked.toList) content = some [] := by
  have hne : content.toList ≠ marked.toList := fun heq ↦ h (String.toList_inj.mp heq)
  rw [contentsOf, taggerOf]
  simp [hne, linguisticTag, terminators, cutSentences]

/-- Texts with the same sentences, whatever the tagger finds, are the same. -/
theorem eq_of_contentsOf {content content' : String}
    (h : ∀ tagger : Tagger .scalars, contentsOf .scalars tagger content
      = contentsOf .scalars tagger content') : content = content' := by
  by_contra hne
  by_cases hempty : content = ""
  · have hne' : content' ≠ "" := fun h' ↦ hne (hempty.trans h'.symm)
    exact contentsOf_marked hne' ((h _).symm.trans (contentsOf_of_ne hne))
  · exact contentsOf_marked hempty ((h _).trans (contentsOf_of_ne (Ne.symm hne)))

/-! ## The condition -/

/-- **An article is answered exactly once**, whatever the tagger finds in it, if and only if the
request can be made, the answer has a page, and its first page has the text of the only extract.
The calls counted here are those of `getWikiContent`, by `answers_eq`. -/
theorem answers_once_iff (model : WikiModel) (response : Response) :
    (∀ (seg : Segmentation) (tagger : Tagger seg), AnswersOnce seg tagger model response) ↔
      Answerable model response := by
  constructor
  · intro h
    obtain ⟨all, hall⟩ := (h .scalars (taggerOf [])).once
    have hurl : (Url.parse model.baseUrl.toList).isSome = true := by
      by_contra hnone
      rw [WikiModel.answers, WikiModel.parseCalls.eq_def,
        if_pos (Option.isNone_iff_eq_none.mpr (Option.not_isSome_iff_eq_none.mp hnone))] at hall
      exact absurd hall (by simp)
    have hpage : pagesOf response ≠ [] := by
      intro hnil
      rw [answers_of_url _ hurl, hnil] at hall
      exact absurd hall (by simp)
    refine ⟨hurl, hpage, fun extract hextract ↦ ?_⟩
    obtain ⟨page, rest, hpages⟩ := List.exists_cons_of_ne_nil hpage
    rw [hpages, List.head?_cons, Option.map_some]
    refine congrArg some (eq_of_contentsOf fun tagger ↦ ?_)
    have hanswer := (h .scalars tagger).extract extract hextract
    rw [answers_of_url _ hurl, hpages] at hanswer
    exact List.singleton_inj.mp hanswer
  · intro h seg tagger
    obtain ⟨page, rest, hpages⟩ := List.exists_cons_of_ne_nil h.page
    have hanswer : model.answers seg tagger response = [contentsOf seg tagger (pageText page)] := by
      rw [answers_of_url _ h.url, hpages]
      rfl
    refine ⟨?_, fun extract hextract ↦ ?_⟩
    · obtain ⟨all, hall⟩ := exists_contentsOf tagger (pageText page)
      exact ⟨all, by rw [hanswer, hall]⟩
    · have hfirst := h.first extract hextract
      rw [hpages] at hfirst
      rw [hanswer, Option.some.inj hfirst]

/-- **Without data nothing is called.** -/
theorem not_answers_once : ¬∀ (seg : Segmentation) (tagger : Tagger seg) (title : String)
    (response : Response), AnswersOnce seg tagger (.ofTitle title) response := by
  intro h
  obtain ⟨all, hall⟩ := (h .scalars (taggerOf []) "Statue of Liberty" .noData).once
  rw [WikiModel.answers, WikiModel.parseCalls.eq_def, ite_self] at hall
  exact absurd hall (by simp)

end LandCap
