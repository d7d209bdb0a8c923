import LandCap.Library.Pieces
import LandCap.Wiki.Basic

/-!
# The sentences of an article

`KeepsText` says what cutting an article into sentences has to preserve: the visible characters, in
order, and the gaps between them.  `keeps_iff` says when `getWikiContent` does so.  The sentences
end after the first character of each terminator, and so

* what is behind the last terminator is dropped, so there must be nothing visible there;
* line breaks are taken out before the text is cut, so two lines run together unless a sentence ends
  where the first of them does.

The sentences before trimming are `pieces`, and everything is said about these first.  Trimming
takes blanks off their ends, and so changes neither the visible characters nor the gaps inside.
-/

set_option autoImplicit false

namespace LandCap

open Pieces

/-! ## What is to be kept -/

/-- A character that can be seen. -/
def isVisible (c : Char) : Bool := !isWhitespace c

/-- Two visible characters of the text that have whitespace between them, and stand in one of the
sentences, have whitespace between them there.  A visible character is found again by the number of
visible characters before it. -/
def KeepsApart (text : List Char) (sentences : List (List Char)) : Prop :=
  ∀ {x w y : List Char} {a b : Char} {before after : List (List Char)} {u m v : List Char},
    text = x ++ a :: (w ++ b :: y) → sentences = before ++ (u ++ a :: (m ++ b :: v)) :: after →
    isVisible a = true → isVisible b = true →
    x.countP isVisible = (before.flatten ++ u).countP isVisible →
    w.countP isVisible = m.countP isVisible →
    (∃ c ∈ w, isWhitespace c = true) → ∃ c ∈ m, isWhitespace c = true

/-- No text is lost or run together. -/
structure KeepsText (text : List Char) (sentences : List (List Char)) : Prop where
  visible : sentences.flatten.filter isVisible = text.filter isVisible
  apart : KeepsApart text sentences

/-- The text of the article in the answer, or the text in its place. -/
def articleOf (response : Response) : Option String :=
  match response with
  | .json json =>
    match ((json.get "query").get "pages").elements with
    | [] => none
    | subJson :: _ => some ((subJson.get "extract").string?.getD "No Description")
  | _ => none

/-! ## The sentences before trimming -/

/-- The lengths of the text up to the ends of its sentences. -/
def ends (chars : List (List Char)) (tokens : List Token) : List ℕ :=
  (terminators tokens).map fun ix ↦ ((chars.take (ix + 1)).flatten).length

/-- The sentences before trimming. -/
def pieces (chars : List (List Char)) (tokens : List Token) : List (List Char) :=
  (chop chars 0 ((terminators tokens).map (· + 1))).map List.flatten

theorem cutSentences_eq {chars : List (List Char)} {ixs : List ℕ} {prev : ℕ}
    (hixs : ixs.Pairwise (· < ·)) (hprev : ∀ ix ∈ ixs, prev ≤ ix)
    (hlen : ∀ ix ∈ ixs, ix < chars.length) :
    cutSentences chars prev ixs = some ((chop chars prev (ixs.map (· + 1))).map
      fun piece ↦ trimmingWhitespaces piece.flatten) := by
  induction ixs generalizing prev with
  | nil => rfl
  | cons ix ixs ih =>
    obtain ⟨hix, hixs⟩ := List.pairwise_cons.mp hixs
    have hrest := ih hixs hix fun i hi ↦ hlen i (List.mem_cons_of_mem ix hi)
    rw [cutSentences, if_pos ⟨hprev ix List.mem_cons_self, hlen ix List.mem_cons_self⟩, hrest]
    rfl

section Tokens

variable {n : ℕ} (tokens : Tokenization n)

theorem pairwise_terminators : (terminators tokens.tokens).Pairwise (· < ·) := by
  rw [terminators, List.pairwise_map]
  refine List.Pairwise.filter _ (tokens.ascending.imp_of_mem ?_)
  intro s t hs ht hle
  exact (tokens.nonempty s hs).trans_le hle

theorem lt_of_mem_terminators {ix : ℕ} (h : ix ∈ terminators tokens.tokens) : ix < n := by
  obtain ⟨t, ht, rfl⟩ := List.mem_map.mp h
  have ht := List.mem_of_mem_filter ht
  exact (tokens.nonempty t ht).trans_le (tokens.inside t ht)

/-- The positions at which the pieces end, in order. -/
theorem pairwise_positions :
    (0 :: (terminators tokens.tokens).map (· + 1)).Pairwise (· ≤ ·) := by
  refine List.pairwise_cons.mpr ⟨fun j hj ↦ Nat.zero_le j, ?_⟩
  rw [List.pairwise_map]
  exact (pairwise_terminators tokens).imp fun h ↦ by omega

end Tokens

variable {seg : Segmentation} {text : List Char}
  (tokens : Tokenization (seg.characters text).length)

/-- **Cutting never stops the program**, and yields the trimmed pieces. -/
theorem linguisticTag_eq :
    linguisticTag (seg.characters text) tokens.tokens =
      some ((pieces (seg.characters text) tokens.tokens).map trimmingWhitespaces) := by
  rw [linguisticTag, cutSentences_eq (pairwise_terminators tokens) (fun ix _ ↦ Nat.zero_le ix)
    (fun ix hix ↦ lt_of_mem_terminators tokens hix), pieces, List.map_map]
  rfl

/-- The pieces and what is behind the last of them are the text. -/
theorem text_eq :
    text = (pieces (seg.characters text) tokens.tokens).flatten ++
      text.drop ((ends (seg.characters text) tokens.tokens).getLastD 0) := by
  have hchop := drop_eq_flatten_chop (seg.characters text) (pairwise_positions tokens)
  set last := ((terminators tokens.tokens).map (· + 1)).getLastD 0 with hlast
  have hends : (ends (seg.characters text) tokens.tokens).getLastD 0
      = (((seg.characters text).take last).flatten).length := by
    rw [hlast, ends, List.getLastD_eq_getLast?, List.getLastD_eq_getLast?, List.getLast?_map,
      List.getLast?_map]
    cases (terminators tokens.tokens).getLast? <;> rfl
  have hdrop : text.drop ((ends (seg.characters text) tokens.tokens).getLastD 0)
      = ((seg.characters text).drop last).flatten := by
    have hsplit : ((seg.characters text).take last).flatten ++
        ((seg.characters text).drop last).flatten = text := by
      rw [← List.flatten_append, List.take_append_drop, seg.flatten_characters]
    rw [hends, eq_comm]
    exact (List.drop_left' rfl).symm.trans (congrArg _ hsplit)
  rw [List.drop_zero] at hchop
  rw [hdrop, pieces, ← List.flatten_flatten, ← List.flatten_append, ← hchop,
    seg.flatten_characters]

/-- Every end is the end of a piece. -/
theorem exists_piece_of_mem_ends {o : ℕ} (h : o ∈ ends (seg.characters text) tokens.tokens) :
    ∃ ps p qs, pieces (seg.characters text) tokens.tokens = ps ++ p :: qs ∧
      (ps ++ [p]).flatten.length = o := by
  obtain ⟨ix, hix, rfl⟩ := List.mem_map.mp h
  obtain ⟨xs, x, ys, hchop, hflat⟩ := exists_piece_of_mem (seg.characters text)
    (pairwise_positions tokens) (List.mem_map_of_mem hix)
  refine ⟨xs.map List.flatten, x.flatten, ys.map List.flatten, ?_, ?_⟩
  · rw [pieces, hchop, List.map_append, List.map_cons]
  · rw [List.drop_zero] at hflat
    rw [← hflat, List.flatten_flatten, List.map_append, List.map_cons, List.map_nil]

/-- Every piece ends at an end. -/
theorem mem_ends_of_piece {ps qs : List (List Char)} {p : List Char}
    (h : pieces (seg.characters text) tokens.tokens = ps ++ p :: qs) :
    (ps ++ [p]).flatten.length ∈ ends (seg.characters text) tokens.tokens := by
  obtain ⟨xs, x', hchop, rfl, hx⟩ := List.map_eq_append_iff.mp h
  obtain ⟨x, ys, rfl, rfl, rfl⟩ := List.map_eq_cons_iff.mp hx
  obtain ⟨j, hj, hflat⟩ := exists_mem_of_piece (seg.characters text) (pairwise_positions tokens)
    hchop
  obtain ⟨ix, hix, rfl⟩ := List.mem_map.mp hj
  refine List.mem_map.mpr ⟨ix, hix, ?_⟩
  rw [List.drop_zero] at hflat
  rw [← hflat, List.flatten_flatten, List.map_append, List.map_cons, List.map_nil]


/-! ## Trimming -/

theorem isVisible_eq_false_of_isBlank {c : Char} (h : isBlank c = true) : isVisible c = false := by
  rw [isVisible, isWhitespace, h, Bool.true_or, Bool.not_true]

theorem not_isBlank {c : Char} (h : isVisible c = true) : ¬isBlank c = true := by
  intro hc
  rw [isVisible_eq_false_of_isBlank hc] at h
  exact Bool.false_ne_true h

theorem filter_of_isBlank {l : List Char} (h : ∀ c ∈ l, isBlank c = true) :
    l.filter isVisible = [] := by
  refine List.filter_eq_nil_iff.mpr fun c hc ↦ ?_
  rw [isVisible_eq_false_of_isBlank (h c hc)]
  exact Bool.false_ne_true

theorem countP_of_isBlank {l : List Char} (h : ∀ c ∈ l, isBlank c = true) :
    l.countP isVisible = 0 := by
  rw [List.countP_eq_length_filter, filter_of_isBlank h, List.length_nil]

/-- Trimming takes nothing visible away. -/
theorem filter_trimmingWhitespaces (s : List Char) :
    (trimmingWhitespaces s).filter isVisible = s.filter isVisible := by
  obtain ⟨u, v, hs, hu, hv⟩ := exists_trim isBlank s
  conv_rhs => rw [hs]
  rw [List.filter_append, List.filter_append, filter_of_isBlank hu, filter_of_isBlank hv,
    List.nil_append, List.append_nil, trimmingWhitespaces]

theorem filter_flatten_map_trimmingWhitespaces (ps : List (List Char)) :
    (ps.map trimmingWhitespaces).flatten.filter isVisible = ps.flatten.filter isVisible := by
  rw [List.filter_flatten, List.filter_flatten, List.map_map]
  exact congrArg _ (List.map_congr_left fun p _ ↦ filter_trimmingWhitespaces p)

theorem countP_flatten_map_trimmingWhitespaces (ps : List (List Char)) :
    (ps.map trimmingWhitespaces).flatten.countP isVisible = ps.flatten.countP isVisible := by
  rw [List.countP_eq_length_filter, filter_flatten_map_trimmingWhitespaces,
    ← List.countP_eq_length_filter]

/-- Two visible characters, and what is between them, survive trimming. -/
theorem trimmingWhitespaces_append_cons {a b : Char} (ha : isVisible a = true)
    (hb : isVisible b = true) (u m v : List Char) :
    trimmingWhitespaces (u ++ a :: (m ++ b :: v))
      = u.dropWhile isBlank ++ a :: (m ++ b :: v.rdropWhile isBlank) := by
  have hassoc : ∀ l : List Char, u ++ a :: (m ++ b :: l) = (u ++ a :: m) ++ b :: l := by
    intro l
    rw [List.append_assoc, List.cons_append]
  rw [trimmingWhitespaces, hassoc, rdropWhile_append_cons (not_isBlank hb), ← hassoc,
    dropWhile_append_cons (not_isBlank ha)]

/-! ## Taking out the line breaks -/

theorem replacingOccurrences_nil (target : Char) (text : List Char) :
    replacingOccurrences target [] text = text.filter (· ≠ target) := by
  induction text with
  | nil => rfl
  | cons c text ih =>
    rw [replacingOccurrences, List.flatMap_cons, ← replacingOccurrences, ih, List.filter_cons]
    by_cases hc : c = target <;> simp [hc]

/-- The text that is cut into sentences. -/
def joined (text : List Char) : List Char := replacingOccurrences '\n' [] text

@[simp] theorem joined_nil : joined [] = [] := rfl

theorem joined_append (x y : List Char) : joined (x ++ y) = joined x ++ joined y :=
  List.flatMap_append

theorem joined_cons {c : Char} (h : c ≠ '\n') (x : List Char) :
    joined (c :: x) = c :: joined x := by
  rw [joined, replacingOccurrences, List.flatMap_cons, if_neg h, List.singleton_append]
  rfl

@[simp] theorem joined_replicate (k : ℕ) : joined (List.replicate k '\n') = [] := by
  rw [joined, replacingOccurrences_nil]
  simp

theorem ne_newline {c : Char} (h : isVisible c = true) : c ≠ '\n' := by
  rintro rfl
  exact absurd h (by decide)

theorem filter_joined (text : List Char) :
    (joined text).filter isVisible = text.filter isVisible := by
  rw [joined, replacingOccurrences_nil, List.filter_filter]
  refine List.filter_congr fun c _ ↦ ?_
  by_cases hc : isVisible c = true
  · simp [hc, ne_newline hc]
  · simp [hc]

theorem countP_joined (text : List Char) :
    (joined text).countP isVisible = text.countP isVisible := by
  rw [List.countP_eq_length_filter, filter_joined, ← List.countP_eq_length_filter]

/-! ## When the text is kept -/

/-- **The condition**: behind the last end of a sentence there is nothing visible, and wherever two
visible characters are separated by line breaks only, a sentence ends after the first of them. -/
structure Fits (text : List Char) (ends : List ℕ) : Prop where
  rest : ∀ c ∈ (joined text).drop (ends.getLastD 0), isWhitespace c = true
  lines : ∀ {x y : List Char} {a b : Char} {k : ℕ},
    text = x ++ a :: (List.replicate (k + 1) '\n' ++ b :: y) →
    isVisible a = true → isVisible b = true → (joined x).length + 1 ∈ ends

section Cut

variable {seg : Segmentation} {text : List Char}
  (tokens : Tokenization (seg.characters (joined text)).length)

/-- Nothing visible is lost if and only if nothing visible is behind the last sentence. -/
theorem filter_sentences_iff :
    ((pieces (seg.characters (joined text)) tokens.tokens).map
        trimmingWhitespaces).flatten.filter isVisible = text.filter isVisible ↔
      ∀ c ∈ (joined text).drop ((ends (seg.characters (joined text)) tokens.tokens).getLastD 0),
        isWhitespace c = true := by
  have htext := congrArg (List.filter isVisible) (text_eq tokens)
  rw [List.filter_append, filter_joined] at htext
  rw [filter_flatten_map_trimmingWhitespaces, htext, List.self_eq_append_right,
    List.filter_eq_nil_iff]
  simp only [isVisible, Bool.not_eq_true', Bool.not_eq_false]

theorem joined_gap {a b : Char} (ha : isVisible a = true) (hb : isVisible b = true)
    (x w y : List Char) :
    joined (x ++ a :: (w ++ b :: y)) = joined x ++ a :: (joined w ++ b :: joined y) := by
  rw [joined_append, joined_cons (ne_newline ha), joined_append, joined_cons (ne_newline hb)]

/-- Where only line breaks make the gaps, there are two visible characters with line breaks and
nothing else between them. -/
theorem exists_lines {a b : Char} {w : List Char} (ha : isVisible a = true)
    (hb : isVisible b = true) (hgap : ∃ c ∈ w, isWhitespace c = true)
    (hno : ¬∃ c ∈ joined w, isWhitespace c = true) :
    ∃ x a' k b' y, a :: w ++ [b] = x ++ a' :: List.replicate (k + 1) '\n' ++ b' :: y ∧
      isVisible a' = true ∧ isVisible b' = true ∧ (joined x).length ≤ (joined w).length := by
  have hvis : ∀ c ∈ w, isVisible c = true ∨ c = '\n' := by
    intro c hc
    refine or_iff_not_imp_right.mpr fun hn ↦ ?_
    have hcj : c ∈ joined w := by
      rw [joined, replacingOccurrences_nil]
      exact List.mem_filter.mpr ⟨hc, by simpa using hn⟩
    rw [isVisible, Bool.not_eq_true', ← Bool.not_eq_true]
    exact fun hws ↦ hno ⟨c, hcj, hws⟩
  have hnl : '\n' ∈ w := by
    obtain ⟨c, hc, hws⟩ := hgap
    rcases hvis c hc with hcv | rfl
    · rw [isVisible, hws] at hcv
      exact absurd hcv (by decide)
    · exact hc
  obtain ⟨x, a', k, b', y, heq, ha', hb'⟩ := exists_adjacent ha hb hvis hnl
  refine ⟨x, a', k, b', y, heq, ha', hb', ?_⟩
  have hlen := congrArg (fun l ↦ (joined l).length) heq
  simp only [List.append_assoc, List.cons_append, joined_append, joined_cons (ne_newline ha),
    joined_cons (ne_newline hb), joined_cons (ne_newline ha'), joined_cons (ne_newline hb'),
    joined_replicate, joined_nil, List.length_append, List.length_cons, List.length_nil] at hlen
  omega

/-- **Two characters in a sentence are the two in the text**: what is before the first, and what is
between them, is the same up to line breaks. -/
theorem joined_eq_of_sentence {x w y u m v p : List Char} {a b : Char} {ps qs : List (List Char)}
    (ha : isVisible a = true) (hb : isVisible b = true)
    (htext : text = x ++ a :: (w ++ b :: y))
    (hps : pieces (seg.characters (joined text)) tokens.tokens = ps ++ p :: qs)
    (hp : trimmingWhitespaces p = u ++ a :: (m ++ b :: v))
    (hx : x.countP isVisible = ((ps.map trimmingWhitespaces).flatten ++ u).countP isVisible)
    (hw : w.countP isVisible = m.countP isVisible) :
    joined w = m ∧ (joined x).length + m.length + 2 ≤ (ps ++ [p]).flatten.length ∧
      ps.flatten.length ≤ (joined x).length := by
  -- the piece is the sentence with the blanks `s` and `t` at its ends
  obtain ⟨s, t, hst, hsb, -⟩ := exists_trim isBlank p
  rw [← trimmingWhitespaces, hp] at hst
  have hj : joined text = joined x ++ a :: (joined w ++ b :: joined y) := by
    rw [htext, joined_gap ha hb]
  have hj' := text_eq tokens
  rw [hps, hst, List.flatten_append, List.flatten_cons] at hj'
  generalize (joined text).drop _ = rest at hj'
  have hcut : joined text = (ps.flatten ++ s ++ u) ++
      a :: (m ++ b :: (v ++ t ++ qs.flatten ++ rest)) := by
    rw [hj']
    simp only [List.append_assoc, List.cons_append]
  have hcount : (joined x).countP isVisible = (ps.flatten ++ s ++ u).countP isVisible := by
    rw [countP_joined, hx, List.countP_append, List.countP_append, List.countP_append,
      countP_flatten_map_trimmingWhitespaces, countP_of_isBlank hsb, Nat.add_zero]
  obtain ⟨hxeq, -, htail⟩ := append_cons_inj ha ha (hj.symm.trans hcut) hcount
  obtain ⟨hweq, -, -⟩ := append_cons_inj hb hb htail (by rw [countP_joined, hw])
  refine ⟨hweq, ?_, ?_⟩
  · rw [hxeq, hst, List.flatten_append, List.flatten_singleton]
    simp only [List.length_append, List.length_cons]
    omega
  · rw [hxeq, List.append_assoc, List.length_append]
    exact Nat.le_add_right _ _

/-- Characters are kept apart where sentences end with the lines. -/
theorem keepsApart_of_lines
    (h : ∀ {x y : List Char} {a b : Char} {k : ℕ},
      text = x ++ a :: (List.replicate (k + 1) '\n' ++ b :: y) →
      isVisible a = true → isVisible b = true →
      (joined x).length + 1 ∈ ends (seg.characters (joined text)) tokens.tokens) :
    KeepsApart text
      ((pieces (seg.characters (joined text)) tokens.tokens).map trimmingWhitespaces) := by
  intro x w y a b before after u m v htext hs ha hb hx hw hgap
  obtain ⟨ps, ps', hps, rfl, hps'⟩ := List.map_eq_append_iff.mp hs
  obtain ⟨p, qs, rfl, hp, rfl⟩ := List.map_eq_cons_iff.mp hps'
  obtain ⟨hweq, hend, hstart⟩ := joined_eq_of_sentence tokens ha hb htext hps hp hx hw
  by_contra hno
  rw [← hweq] at hno
  obtain ⟨x', a', k, b', y', heq, ha', hb', hlen⟩ := exists_lines ha hb hgap hno
  have htext' : text = (x ++ x') ++ a' :: (List.replicate (k + 1) '\n' ++ b' :: (y' ++ y)) := by
    have heq' := congrArg (fun l ↦ x ++ (l ++ y)) heq
    simp only [List.append_assoc, List.cons_append, List.nil_append] at heq' ⊢
    rw [htext, heq']
  -- a sentence ends with the line, inside the piece `p`
  obtain ⟨rs, r, rs', hrs, hr⟩ := exists_piece_of_mem_ends tokens (h htext' ha' hb')
  rw [joined_append, List.length_append] at hr
  rw [hweq] at hlen
  rcases length_flatten_le_or (hrs.symm.trans hps) with hle | hle
  · omega
  · omega

/-- Where the text is kept, sentences end with the lines. -/
theorem lines_of_keepsApart
    (hrest : ∀ c ∈ (joined text).drop
      ((ends (seg.characters (joined text)) tokens.tokens).getLastD 0), isWhitespace c = true)
    (hkeeps : KeepsApart text
      ((pieces (seg.characters (joined text)) tokens.tokens).map trimmingWhitespaces))
    {x y : List Char} {a b : Char} {k : ℕ}
    (htext : text = x ++ a :: (List.replicate (k + 1) '\n' ++ b :: y))
    (ha : isVisible a = true) (hb : isVisible b = true) :
    (joined x).length + 1 ∈ ends (seg.characters (joined text)) tokens.tokens := by
  have hj : joined text = joined x ++ a :: (b :: joined y) := by
    rw [htext, joined_gap ha hb, joined_replicate, List.nil_append]
  have hnot : a ∉ (joined text).drop
      ((ends (seg.characters (joined text)) tokens.tokens).getLastD 0) := by
    intro hmem
    rw [isVisible, hrest a hmem] at ha
    exact absurd ha (by decide)
  obtain ⟨ps, p, qs, u, v, hps, rfl, hx, hy⟩ :=
    exists_piece ((text_eq tokens).symm.trans hj) hnot
  rcases List.cons_eq_append_iff.mp hy with ⟨rfl, -⟩ | ⟨v, rfl, -⟩
  · -- the first character is the last of its piece
    have hend := mem_ends_of_piece tokens hps
    rw [List.flatten_append, List.flatten_singleton, List.length_append, List.length_append,
      List.length_singleton, ← Nat.add_assoc, ← List.length_append, ← hx] at hend
    exact hend
  · -- both are in the piece, and so in the sentence, next to each other
    have hx' : x.countP isVisible
        = ((ps.map trimmingWhitespaces).flatten ++ u.dropWhile isBlank).countP isVisible := by
      have hu : u.countP isVisible = (u.dropWhile isBlank).countP isVisible := by
        conv_lhs => rw [← List.takeWhile_append_dropWhile (p := isBlank) (l := u)]
        rw [List.countP_append, countP_of_isBlank fun c ↦ List.mem_takeWhile_imp, Nat.zero_add]
      rw [← countP_joined, hx, List.countP_append, List.countP_append,
        countP_flatten_map_trimmingWhitespaces, hu]
    have hs := congrArg (List.map trimmingWhitespaces) hps
    rw [List.map_append, List.map_cons, show a :: b :: v = a :: ([] ++ b :: v) from rfl,
      trimmingWhitespaces_append_cons ha hb] at hs
    have hw : (List.replicate (k + 1) '\n').countP isVisible
        = ([] : List Char).countP isVisible := by
      rw [← countP_joined, joined_replicate]
    obtain ⟨c, hc, -⟩ := hkeeps htext hs ha hb hx' hw
      ⟨'\n', List.mem_replicate.mpr ⟨Nat.succ_ne_zero k, rfl⟩, by decide⟩
    exact absurd hc List.not_mem_nil

/-- The cut text is kept if and only if the sentences fit it. -/
theorem keeps_pieces_iff :
    KeepsText text ((pieces (seg.characters (joined text)) tokens.tokens).map trimmingWhitespaces) ↔
      Fits text (ends (seg.characters (joined text)) tokens.tokens) := by
  constructor
  · intro h
    have hrest := (filter_sentences_iff tokens).mp h.visible
    exact ⟨hrest, fun htext ha hb ↦ lines_of_keepsApart tokens hrest h.apart htext ha hb⟩
  · intro h
    exact ⟨(filter_sentences_iff tokens).mpr h.rest, keepsApart_of_lines tokens h.lines⟩

end Cut

/-! ## From the answer to the sentences -/

/-- The callback gets sentences that keep the text. -/
def DeliversAll (seg : Segmentation) (tagger : Tagger seg) (model : WikiModel) (response : Response)
    (text : String) : Prop :=
  ∃ all, model.getWikiContent seg tagger response = .contents all ∧
    KeepsText text.toList (all.map fun content ↦ content.text.toList)

variable {seg : Segmentation} (tagger : Tagger seg) {model : WikiModel} {response : Response}

/-- What `parse` calls back with is the article without its line breaks. -/
theorem parse_eq {text : String} (hurl : (Url.parse model.baseUrl.toList).isSome = true)
    (htext : articleOf response = some text) :
    ∃ content, model.parse response = some content ∧ content.toList = joined text.toList := by
  rw [WikiModel.parse.eq_def, if_neg (by rw [← Option.not_isSome, hurl]; decide)]
  cases response with
  | noData => exact absurd htext (by simp [articleOf])
  | notJSON => exact absurd htext (by simp [articleOf])
  | json json =>
    simp only [articleOf] at htext ⊢
    cases helem : ((json.get "query").get "pages").elements with
    | nil => exact absurd htext (by simp [helem])
    | cons subJson rest =>
      rw [helem] at htext
      obtain rfl := Option.some.inj htext
      cases hextract : (subJson.get "extract").string? with
      | none =>
        refine ⟨"No Description", ?_, by decide +kernel⟩
        simp only [contentOfPages, hextract]
      | some name =>
        refine ⟨withoutNewlines name, ?_, String.toList_ofList⟩
        simp only [contentOfPages, hextract]

theorem getWikiContent_eq {content : String} {text : List Char}
    (hparse : model.parse response = some content) (hcontent : content.toList = text) :
    model.getWikiContent seg tagger response =
      .contents ((pieces (seg.characters text) (tagger text).tokens).map fun piece ↦
        { text := String.ofList (trimmingWhitespaces piece), isSelected := false }) := by
  subst hcontent
  rw [WikiModel.getWikiContent, hparse]
  simp only [linguisticTag_eq, List.map_map]
  rfl

theorem deliversAll_iff_of_parse {content text : String}
    (hparse : model.parse response = some content)
    (hcontent : content.toList = joined text.toList) :
    DeliversAll seg tagger model response text ↔
      Fits text.toList
        (ends (seg.characters (joined text.toList)) (tagger (joined text.toList)).tokens) := by
  have hdeliver := getWikiContent_eq tagger hparse hcontent
  have htexts : ∀ ps : List (List Char), (ps.map fun piece ↦
      ({ text := String.ofList (trimmingWhitespaces piece), isSelected := false } :
        WikiContentModel)).map (fun content ↦ content.text.toList)
        = ps.map trimmingWhitespaces := by
    intro ps
    rw [List.map_map]
    exact List.map_congr_left fun p _ ↦ String.toList_ofList
  rw [← keeps_pieces_iff, ← htexts, DeliversAll, hdeliver]
  constructor
  · rintro ⟨all, hall, hkeeps⟩
    obtain rfl := Delivery.contents.inj hall
    exact hkeeps
  · exact fun hkeeps ↦ ⟨_, rfl, hkeeps⟩

/-- **No text of the article is lost or run together** if and only if nothing visible is behind the
last terminator, and wherever the article has two visible characters with line breaks and nothing
else between them, the first of them ends the first character of a terminator. -/
theorem deliversAll_iff {text : String} (hurl : (Url.parse model.baseUrl.toList).isSome = true)
    (htext : articleOf response = some text) :
    DeliversAll seg tagger model response text ↔
      Fits text.toList
        (ends (seg.characters (joined text.toList)) (tagger (joined text.toList)).tokens) := by
  obtain ⟨content, hparse, hcontent⟩ := parse_eq hurl htext
  exact deliversAll_iff_of_parse tagger hparse hcontent

/-! ## Two answers -/

/-- The tokens of two short texts. -/
def sampleTokens (text : List Char) : List Token :=
  if text = "It floats.".toList then
    [⟨"Pronoun", 0, 2⟩, ⟨"Whitespace", 2, 3⟩, ⟨"Verb", 3, 9⟩, ⟨"SentenceTerminator", 9, 10⟩]
  else if text = "No Description".toList then
    [⟨"Determiner", 0, 2⟩, ⟨"Whitespace", 2, 3⟩, ⟨"Noun", 3, 14⟩]
  else []

/-- A tagger that knows two short texts. -/
def sampleTagger : Tagger .scalars := fun text ↦
  { tokens := sampleTokens text
    nonempty := by rw [sampleTokens]; split_ifs <;> decide
    inside := by
      rw [sampleTokens]
      split_ifs with h h
      · rw [h]; decide +kernel
      · rw [h]; decide +kernel
      · simp
    ascending := by rw [sampleTokens]; split_ifs <;> decide }

/-- The answer with a single page. -/
def answer (page : List (String × JSON)) : Response :=
  .json (.object [("batchcomplete", .string ""),
    ("query", .object [("pages", .object [("1048", .object page)])])])

/-- The article that consists of one sentence is delivered. -/
theorem deliversAll_floats :
    DeliversAll .scalars sampleTagger (WikiModel.ofTitle "Staten Island Ferry")
      (answer [("pageid", .number), ("extract", .string "It floats.")]) "It floats." := by
  refine (deliversAll_iff sampleTagger (by decide +kernel) (by decide +kernel)).mpr
    ⟨List.all_eq_true.mp (by decide +kernel), ?_⟩
  intro x y a b k htext
  have hmem : '\n' ∈ "It floats.".toList := by rw [htext]; simp
  exact absurd hmem (by decide +kernel)

/-- The text for a page without an extract has no terminator, and is lost. -/
theorem not_deliversAll : ¬∀ (seg : Segmentation) (tagger : Tagger seg) (model : WikiModel)
    (response : Response) (text : String), (Url.parse model.baseUrl.toList).isSome = true →
    articleOf response = some text → DeliversAll seg tagger model response text := by
  intro h
  have hurl : (Url.parse (WikiModel.ofTitle "Staten Island Ferry").baseUrl.toList).isSome
      = true := by decide +kernel
  have htext : articleOf (answer [("pageid", .number)]) = some "No Description" := by
    decide +kernel
  obtain ⟨content, hparse, hcontent⟩ := parse_eq hurl htext
  have hfits := (deliversAll_iff_of_parse sampleTagger hparse hcontent).mp
    (h .scalars sampleTagger _ _ _ hurl htext)
  exact absurd (hfits.rest 'N' (by decide +kernel)) (by decide)

end LandCap
