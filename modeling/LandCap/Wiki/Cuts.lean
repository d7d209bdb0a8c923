import Mathlib.Data.List.Pairwise
import LandCap.Wiki.Sentences

/-!
# Where `linguisticTag` cuts

The loop of `linguisticTag` cuts out one range after another: each begins where the last one ended
and ends after the first character of the next terminator.  `cuts` are these ranges.

For every tokenization they are valid, not empty, and follow one another from the beginning of the
text to the end of the last one (`cuts_tile_prefix`), because the loop never looks behind `prev` and
terminators ascend.  But the end of a range is the index after the *lower* bound of a token, which
is the end of the token only if it is one character long.  With that, and only with that, sentences
are cut between tokens (`cut_between_tokens_iff`); a terminator such as "?!" is divided between its
sentence and the next one.
-/

set_option autoImplicit false

namespace LandCap

open Pieces

/-! ## The ranges -/

/-- The tokens after which a sentence is cut. -/
def sentenceTerminators (tokens : List Token) : List Token :=
  tokens.filter fun t ↦ t.tag = "SentenceTerminator"

/-- The ranges that the loop cuts out. -/
def cuts (tokens : List Token) : List (ℕ × ℕ) := ranges 0 ((terminators tokens).map (· + 1))

/-- Where the last range ends: behind the first character of the last terminator. -/
def lastCut (tokens : List Token) : ℕ :=
  (sentenceTerminators tokens).getLast?.elim 0 fun t ↦ t.lowerBound + 1

/-- There is a sentence for each terminator, in order, and what is cut out is not empty and makes up
the text to the first character of the last terminator. -/
structure TilePrefix (chars : List (List Char)) (tokens : List Token) (cuts : List (ℕ × ℕ)) :
    Prop where
  perTerminator : cuts.map Prod.snd = (sentenceTerminators tokens).map fun t ↦ t.lowerBound + 1
  valid : ∀ r ∈ cuts, r.1 < r.2 ∧ r.2 ≤ chars.length
  nonempty : ∀ r ∈ cuts, (slice chars r).flatten ≠ []
  consecutive : Tiles id 0 cuts (lastCut tokens)
  text : (cuts.map fun r ↦ (slice chars r).flatten).flatten = (chars.take (lastCut tokens)).flatten

theorem terminators_eq (tokens : List Token) :
    (terminators tokens).map (· + 1)
      = (sentenceTerminators tokens).map fun t ↦ t.lowerBound + 1 := by
  rw [terminators, List.map_map]
  rfl

theorem lastCut_eq (tokens : List Token) :
    lastCut tokens = ((terminators tokens).map (· + 1)).getLastD 0 := by
  rw [terminators_eq, List.getLastD_eq_getLast?, List.getLast?_map, lastCut]
  cases (sentenceTerminators tokens).getLast? <;> rfl

theorem pieces_eq (chars : List (List Char)) (tokens : List Token) :
    pieces chars tokens = (cuts tokens).map fun r ↦ (slice chars r).flatten := by
  rw [pieces, chop_eq, List.map_map]
  rfl

/-- The ranges follow one another from the beginning of the text. -/
theorem tiles_cuts (tokens : List Token) : Tiles id 0 (cuts tokens) (lastCut tokens) := by
  rw [lastCut_eq]
  exact tiles_ranges 0 _

section Valid

variable {n : ℕ} (tokens : Tokenization n)

/-- **The bounds of a range are in order.** -/
theorem lt_of_mem_cuts {r : ℕ × ℕ} (h : r ∈ cuts tokens.tokens) : r.1 < r.2 := by
  refine lt_of_mem_ranges (List.pairwise_cons.mpr ⟨fun j hj ↦ ?_, ?_⟩) h
  · obtain ⟨ix, -, rfl⟩ := List.mem_map.mp hj
    exact Nat.succ_pos ix
  · rw [List.pairwise_map]
    exact (pairwise_terminators tokens).imp Nat.succ_lt_succ

/-- A range ends after the first character of a terminator. -/
theorem exists_of_mem_cuts {tokens : List Token} {r : ℕ × ℕ} (h : r ∈ cuts tokens) :
    ∃ t ∈ sentenceTerminators tokens, r.2 = t.lowerBound + 1 := by
  have hsnd : r.2 ∈ (cuts tokens).map Prod.snd := List.mem_map_of_mem h
  rw [cuts, map_snd_ranges, terminators_eq] at hsnd
  obtain ⟨t, ht, he⟩ := List.mem_map.mp hsnd
  exact ⟨t, ht, he.symm⟩

/-- Every range is inside the text. -/
theorem le_of_mem_cuts {r : ℕ × ℕ} (h : r ∈ cuts tokens.tokens) : r.2 ≤ n := by
  obtain ⟨t, ht, he⟩ := exists_of_mem_cuts h
  have hmem := List.mem_of_mem_filter ht
  rw [he]
  exact (tokens.nonempty t hmem).trans_le (tokens.inside t hmem)

end Valid

/-- **The sentences are what stands at the cuts**, trimmed. -/
theorem linguisticTag_eq_cuts {seg : Segmentation} {text : List Char}
    (tokens : Tokenization (seg.characters text).length) :
    linguisticTag (seg.characters text) tokens.tokens = some ((cuts tokens.tokens).map fun r ↦
      trimmingWhitespaces (slice (seg.characters text) r).flatten) := by
  rw [linguisticTag_eq, pieces_eq, List.map_map]
  rfl

/-- **The sentence cutter never traps, and its pieces tile a prefix.**  For every text and every
tokenization of it, the loop ends with the trimmed pieces; there is one for each terminator; and
before trimming they are not empty, follow one another, and make up the text to the first character
of the last terminator. -/
theorem cuts_tile_prefix (seg : Segmentation) (text : List Char)
    (tokens : Tokenization (seg.characters text).length) :
    linguisticTag (seg.characters text) tokens.tokens = some ((cuts tokens.tokens).map fun r ↦
        trimmingWhitespaces (slice (seg.characters text) r).flatten) ∧
      TilePrefix (seg.characters text) tokens.tokens (cuts tokens.tokens) := by
  refine ⟨linguisticTag_eq_cuts tokens, ⟨?_,
    fun r hr ↦ ⟨lt_of_mem_cuts tokens hr, le_of_mem_cuts tokens hr⟩,
    fun r hr ↦ ?_, tiles_cuts _, ?_⟩⟩
  · rw [cuts, map_snd_ranges, terminators_eq]
  · -- a character is never empty, and there is one at the beginning of the range
    have hlt := lt_of_mem_cuts tokens hr
    have hle := le_of_mem_cuts tokens hr
    have hlen : (slice (seg.characters text) r).length = r.2 - r.1 := by
      rw [slice, List.length_drop, List.length_take, Nat.min_eq_left hle]
    obtain ⟨c, hc⟩ := List.exists_mem_of_length_pos (hlen ▸ Nat.sub_pos_of_lt hlt)
    intro hnil
    have hmem : c ∈ seg.characters text := List.mem_of_mem_take (List.mem_of_mem_drop hc)
    exact seg.ne_nil text c hmem (List.flatten_eq_nil_iff.mp hnil c hc)
  · have hle : ∀ r ∈ cuts tokens.tokens, (id r).1 ≤ (id r).2 :=
      fun r hr ↦ (lt_of_mem_cuts tokens hr).le
    have hslices := (tiles_cuts tokens.tokens).flatten_slices hle (seg.characters text)
    have hflatten := congrArg List.flatten hslices
    rwa [List.flatten_flatten, List.map_map] at hflatten

/-! ## Cutting between tokens -/

/-- Where a token stands. -/
def Token.range (t : Token) : ℕ × ℕ := (t.lowerBound, t.upperBound)

/-- What stands at the range are whole tokens, one after another. -/
def WholeTokens (tokens : List Token) (r : ℕ × ℕ) : Prop :=
  ∃ ts, ts <:+: tokens ∧ Tiles Token.range r.1 ts r.2

/-- Every sentence, before trimming, is made of whole tokens. -/
def CutBetweenTokens (tokens : List Token) : Prop := ∀ r ∈ cuts tokens, WholeTokens tokens r

/-- Every terminator is one character long. -/
def SingleTerminators (tokens : List Token) : Prop :=
  ∀ t ∈ sentenceTerminators tokens, t.upperBound = t.lowerBound + 1

/-- What is made of whole tokens is their text. -/
theorem slice_of_wholeTokens {n : ℕ} {tokens : Tokenization n} {r : ℕ × ℕ}
    (h : WholeTokens tokens.tokens r) (chars : List (List Char)) :
    ∃ ts, ts <:+: tokens.tokens ∧
      slice chars r = (ts.map fun t ↦ slice chars t.range).flatten := by
  obtain ⟨ts, hts, htiles⟩ := h
  refine ⟨ts, hts, (htiles.flatten_slices (fun t ht ↦ ?_) chars).symm⟩
  exact (tokens.nonempty t (hts.subset ht)).le

/-- **One token after another.**  The tokens `acc` have been read since the last cut; those to come
go on from there. -/
theorem wholeTokens_of_single {tokens : List Token} (hsingle : SingleTerminators tokens) {n : ℕ}
    {todo : List Token} : ∀ {done acc : List Token} {prev here : ℕ},
      tokens = done ++ acc ++ todo → Tiles Token.range prev acc here →
      Tiles Token.range here todo n →
      ∀ r ∈ ranges prev ((terminators todo).map (· + 1)), WholeTokens tokens r := by
  induction todo with
  | nil => exact fun _ _ _ r hr ↦ absurd hr List.not_mem_nil
  | cons t todo ih =>
    intro done acc prev here htokens hacc htodo r hr
    obtain ⟨rfl, hrest⟩ := htodo
    have hconcat : Tiles Token.range prev (acc ++ [t]) t.upperBound :=
      tiles_concat.mpr ⟨hacc, rfl⟩
    by_cases ht : t.tag = "SentenceTerminator"
    · -- the terminator is the last token of its sentence
      have hmem : t ∈ sentenceTerminators tokens :=
        List.mem_filter.mpr ⟨by simp [htokens], by simpa using ht⟩
      have hlast : t.upperBound = t.lowerBound + 1 := hsingle t hmem
      have hterminators : terminators (t :: todo) = t.lowerBound :: terminators todo := by
        simp [terminators, ht]
      rw [hterminators, List.map_cons, ranges, ← hlast] at hr
      rcases List.mem_cons.mp hr with rfl | hr
      · exact ⟨acc ++ [t], ⟨done, todo, by simp [htokens]⟩, hconcat⟩
      · have hread : tokens = (done ++ acc ++ [t]) ++ [] ++ todo := by simp [htokens]
        exact ih hread rfl hrest r hr
    · have hterminators : terminators (t :: todo) = terminators todo := by
        simp [terminators, ht]
      rw [hterminators] at hr
      have hread : tokens = done ++ (acc ++ [t]) ++ todo := by simp [htokens]
      exact ih hread hconcat hrest r hr

/-- Whole tokens end where the last of them does. -/
theorem exists_token_of_wholeTokens {tokens : List Token} {r : ℕ × ℕ}
    (h : WholeTokens tokens r) (hlt : r.1 < r.2) : ∃ t ∈ tokens, t.upperBound = r.2 := by
  obtain ⟨ts, hts, htiles⟩ := h
  rcases ts.eq_nil_or_concat with rfl | ⟨us, t, rfl⟩
  · exact absurd htiles (Nat.ne_of_lt hlt)
  · rw [List.concat_eq_append] at hts htiles
    obtain ⟨-, hend⟩ := tiles_concat.mp htiles
    exact ⟨t, hts.subset (List.mem_append_right us List.mem_cons_self), hend⟩

/-- Of two tokens, one ends before the other begins. -/
theorem apart_of_ne {n : ℕ} (tokens : Tokenization n) {s t : Token} (hs : s ∈ tokens.tokens)
    (ht : t ∈ tokens.tokens) (hne : s ≠ t) :
    s.upperBound ≤ t.lowerBound ∨ t.upperBound ≤ s.lowerBound := by
  have hsymm : Std.Symm fun s t : Token ↦
      s.upperBound ≤ t.lowerBound ∨ t.upperBound ≤ s.lowerBound := ⟨fun _ _ ↦ Or.symm⟩
  have hapart : tokens.tokens.Pairwise fun s t ↦
      s.upperBound ≤ t.lowerBound ∨ t.upperBound ≤ s.lowerBound := tokens.ascending.imp Or.inl
  exact hapart.forall hs ht hne

/-- **Sentences are cut between tokens** of a tokenization that tiles the text exactly if every
terminator is one character long.  Each of them is then the text of some tokens, one after another
(`slice_of_wholeTokens`). -/
theorem cut_between_tokens_iff {n : ℕ} (tokens : Tokenization n)
    (htiles : Tiles Token.range 0 tokens.tokens n) :
    CutBetweenTokens tokens.tokens ↔ SingleTerminators tokens.tokens := by
  have hstart : tokens.tokens = [] ++ [] ++ tokens.tokens := rfl
  have hnone : Tiles Token.range 0 [] 0 := rfl
  refine ⟨fun h t ht ↦ ?_, fun h ↦ wholeTokens_of_single h hstart hnone htiles⟩
  -- the sentence of a terminator ends after its first character, so a token has to end there
  have hmem := List.mem_of_mem_filter ht
  obtain ⟨r, hr, hsnd⟩ : ∃ r ∈ cuts tokens.tokens, r.2 = t.lowerBound + 1 := by
    have hend : t.lowerBound + 1 ∈ (cuts tokens.tokens).map Prod.snd := by
      rw [cuts, map_snd_ranges, terminators_eq]
      exact List.mem_map_of_mem ht
    exact List.mem_map.mp hend
  obtain ⟨s, hs, hupper⟩ := exists_token_of_wholeTokens (h r hr) (lt_of_mem_cuts tokens hr)
  rcases eq_or_ne s t with rfl | hne
  · exact hupper.trans hsnd
  · have happart := apart_of_ne tokens hs hmem hne
    have hlower := tokens.nonempty s hs
    have hnonempty := tokens.nonempty t hmem
    omega

/-- "Oh. Yes.", with its tokens. -/
def ohTokens : Tokenization 8 where
  tokens := [⟨"Interjection", 0, 2⟩, ⟨"SentenceTerminator", 2, 3⟩, ⟨"Whitespace", 3, 4⟩,
    ⟨"Interjection", 4, 7⟩, ⟨"SentenceTerminator", 7, 8⟩]
  nonempty := by decide
  inside := by decide
  ascending := by decide

theorem cut_between_tokens_ohTokens : CutBetweenTokens ohTokens.tokens :=
  (cut_between_tokens_iff ohTokens ⟨rfl, rfl, rfl, rfl, rfl, rfl⟩).mpr (by
    unfold SingleTerminators
    decide)

/-- "Wow?! Yes.", with its tokens. -/
def wowTokens : Tokenization 10 where
  tokens := [⟨"Interjection", 0, 3⟩, ⟨"SentenceTerminator", 3, 5⟩, ⟨"Whitespace", 5, 6⟩,
    ⟨"Interjection", 6, 9⟩, ⟨"SentenceTerminator", 9, 10⟩]
  nonempty := by decide
  inside := by decide
  ascending := by decide

/-- **A terminator of two characters is divided.**  The first sentence of "Wow?! Yes." is "Wow?",
and the second is "! Yes.". -/
theorem not_cut_between_tokens :
    ¬∀ (seg : Segmentation) (text : List Char) (tokens : Tokenization (seg.characters text).length),
      Tiles Token.range 0 tokens.tokens (seg.characters text).length →
        CutBetweenTokens tokens.tokens := by
  intro h
  have hcut : CutBetweenTokens wowTokens.tokens :=
    h .scalars "Wow?! Yes.".toList wowTokens ⟨rfl, rfl, rfl, rfl, rfl, rfl⟩
  obtain ⟨t, ht, hupper⟩ := exists_token_of_wholeTokens
    (hcut (0, 4) (by decide)) (by decide)
  revert t
  decide

end LandCap
