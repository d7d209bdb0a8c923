import Mathlib.Data.List.DropRight
import LandCap.Library.Url

/-!
# `WikiModel`: the article of a landmark

`WikiModel` asks Wikipedia for the introduction of an article, takes the extract of the first page
of the answer, removes the line breaks from it, and cuts it into sentences where the system's
tagger has found a sentence terminator.

A text is a list of Unicode scalars.  Swift's strings are indexed by characters, which are groups of
scalars; how the standard library groups them is a `Segmentation`, of which nothing is used but that
it cuts the text into non-empty pieces.  The tokens the tagger returns are a `Tokenization`, with
what its documentation promises about the ranges.  An index of a text is the number of characters
before it.
-/

set_option autoImplicit false

namespace LandCap

/-! ## The request -/

/-- `replacingOccurrences(of:with:)` for a single character. -/
def replacingOccurrences (target : Char) (replacement : List Char) (text : List Char) : List Char :=
  text.flatMap fun c ↦ if c = target then replacement else [c]

/-- The initial value of `baseUrl`. -/
def apiUrl : String :=
  "https://en.wikipedia.org/w/api.php?format=json&action=query&prop=extracts&exintro&explaintext&redirects=1&titles="

/-- `WikiModel`. -/
structure WikiModel where
  baseUrl : String

/-- `WikiModel.init`. -/
def WikiModel.ofTitle (title : String) : WikiModel where
  baseUrl := apiUrl ++ String.ofList (replacingOccurrences ' ' "%20".toList title.toList)

/-! ## The answer -/

/-- A JSON value.  The members of an object stand in the order in which the code iterates over
them. -/
inductive JSON where
  | null
  | bool (b : Bool)
  | number
  | string (s : String)
  | array (items : List JSON)
  | object (members : List (String × JSON))

/-- `json[key]`; anything but an object has no members. -/
def JSON.get (key : String) : JSON → JSON
  | .object members => (members.lookup key).getD .null
  | _ => .null

/-- What `for (_, subJson) in json` runs over. -/
def JSON.elements : JSON → List JSON
  | .array items => items
  | .object members => members.map Prod.snd
  | _ => []

/-- `json.string`. -/
def JSON.string? : JSON → Option String
  | .string s => some s
  | _ => none

/-- What the data task is called back with. -/
inductive Response where
  | noData
  | notJSON
  | json (json : JSON)

/-- The text the code makes of an extract. -/
def withoutNewlines (name : String) : String :=
  String.ofList (replacingOccurrences '\n' [] name.toList)

/-- The loop of `parse`: the first page decides. -/
def contentOfPages : List JSON → Option String
  | [] => none
  | subJson :: _ =>
    match (subJson.get "extract").string? with
    | some name => some (withoutNewlines name)
    | none => some "No Description"

/-- `WikiModel.parse`: the text it calls back with, if it does. -/
def WikiModel.parse (model : WikiModel) (response : Response) : Option String :=
  if (Url.parse model.baseUrl.toList).isNone then none
  else
    match response with
    | .json json => contentOfPages ((json.get "query").get "pages").elements
    | _ => none

/-! ## Sentences -/

/-- The characters of `CharacterSet.whitespaces`: category Zs, and the tabulation. -/
def isBlank (c : Char) : Bool :=
  c = '\t' || c = ' ' || c.toNat = 0xA0 || c.toNat = 0x1680 ||
    (0x2000 ≤ c.toNat && c.toNat ≤ 0x200A) || c.toNat = 0x202F || c.toNat = 0x205F ||
    c.toNat = 0x3000

/-- The characters of `CharacterSet.newlines`. -/
def isNewline (c : Char) : Bool :=
  (0xA ≤ c.toNat && c.toNat ≤ 0xD) || c.toNat = 0x85 || c.toNat = 0x2028 || c.toNat = 0x2029

/-- Whitespace or a newline. -/
def isWhitespace (c : Char) : Bool := isBlank c || isNewline c

/-- `trimmingCharacters(in: .whitespaces)`. -/
def trimmingWhitespaces (text : List Char) : List Char :=
  (text.rdropWhile isBlank).dropWhile isBlank

/-- How a text is grouped into characters. -/
structure Segmentation where
  characters : List Char → List (List Char)
  flatten_characters : ∀ text, (characters text).flatten = text
  ne_nil : ∀ text, ∀ c ∈ characters text, c ≠ []

/-- Every scalar is a character. -/
def Segmentation.scalars : Segmentation where
  characters text := text.map fun c ↦ [c]
  flatten_characters text := by
    induction text with
    | nil => rfl
    | cons c text ih => rw [List.map_cons, List.flatten_cons, ih, List.singleton_append]
  ne_nil text c hc := by
    obtain ⟨d, -, rfl⟩ := List.mem_map.mp hc
    simp

/-- A token and its tag. -/
structure Token where
  tag : String
  lowerBound : ℕ
  upperBound : ℕ

/-- The tokens of a text of `n` characters, in order. -/
structure Tokenization (n : ℕ) where
  tokens : List Token
  nonempty : ∀ t ∈ tokens, t.lowerBound < t.upperBound
  inside : ∀ t ∈ tokens, t.upperBound ≤ n
  ascending : tokens.Pairwise fun s t ↦ s.upperBound ≤ t.lowerBound

/-- The indices at which sentences end. -/
def terminators (tokens : List Token) : List ℕ :=
  (tokens.filter fun t ↦ t.tag = "SentenceTerminator").map Token.lowerBound

/-- The loop of `linguisticTag`, with the sentences after `prev`; `none` when an index or a range
is not valid. -/
def cutSentences (text : List (List Char)) : ℕ → List ℕ → Option (List (List Char))
  | _, [] => some []
  | prev, ix :: ixs =>
    -- `prev...ix`, `text[r]` and `text.index(after: ix)`
    if prev ≤ ix ∧ ix < text.length then
      (cutSentences text (ix + 1) ixs).map
        (trimmingWhitespaces ((text.take (ix + 1)).drop prev).flatten :: ·)
    else none

/-- `WikiModel.linguisticTag`. -/
def linguisticTag (text : List (List Char)) (tokens : List Token) : Option (List (List Char)) :=
  cutSentences text 0 (terminators tokens)

/-! ## The request as a whole -/

/-- `WikiContentModel`. -/
structure WikiContentModel where
  text : String
  isSelected : Bool
  deriving DecidableEq

/-- The tokens the tagger finds, for every text. -/
abbrev Tagger (seg : Segmentation) := (text : List Char) → Tokenization (seg.characters text).length

/-- What becomes of a request: the callback is not called, the program stops, or the callback gets
the sentences. -/
inductive Delivery where
  | silence
  | trap
  | contents (all : List WikiContentModel)

/-- `WikiModel.getWikiContent`. -/
def WikiModel.getWikiContent (seg : Segmentation) (tagger : Tagger seg) (model : WikiModel)
    (response : Response) : Delivery :=
  match model.parse response with
  | none => .silence
  | some content =>
    match linguisticTag (seg.characters content.toList) (tagger content.toList).tokens with
    | none => .trap
    | some results =>
      .contents (results.map fun text ↦ { text := String.ofList text, isSelected := false })

end LandCap
