import Mathlib.Data.List.DropRight

/-!
# Pieces of a list

`chop l i js` is the list `l` from position `i` on, cut at the positions `js`; what is behind the
last position is left out.  The pieces and the rest are the list again (`drop_eq_flatten_chop`), and
the pieces end exactly at the positions (`exists_piece_of_mem`, `exists_mem_of_piece`).  Where the
pieces stand is said by `ranges`: half-open ranges, which tile the list up to the last position
(`tiles_ranges`).

The second half follows single elements.  An element that is not in the rest lies in a piece
(`exists_piece`), a marked element is known by the number of marked elements before it
(`append_cons_inj`), and trimming drops nothing from between two elements that stay.
-/

set_option autoImplicit false

namespace Pieces

variable {α : Type*}

/-! ## Cutting at positions -/

/-- The pieces of `l` from position `i` on that end at the positions `js`. -/
def chop (l : List α) : ℕ → List ℕ → List (List α)
  | _, [] => []
  | i, j :: js => (l.take j).drop i :: chop l j js

theorem drop_eq_append {i j : ℕ} (l : List α) (h : i ≤ j) :
    l.drop i = (l.take j).drop i ++ l.drop j := by
  rcases Nat.le_total l.length j with hj | hj
  · rw [List.take_of_length_le hj, List.drop_eq_nil_of_le hj, List.append_nil]
  · conv_lhs => rw [← List.take_append_drop j l]
    rw [List.drop_append_of_le_length (by rw [List.length_take]; omega)]

/-- **The pieces and the rest** are the list again. -/
theorem drop_eq_flatten_chop (l : List α) {i : ℕ} {js : List ℕ}
    (h : (i :: js).Pairwise (· ≤ ·)) :
    l.drop i = (chop l i js).flatten ++ l.drop (js.getLastD i) := by
  induction js generalizing i with
  | nil => rfl
  | cons j js ih =>
    obtain ⟨hi, hjs⟩ := List.pairwise_cons.mp h
    rw [drop_eq_append l (hi j List.mem_cons_self), chop, List.flatten_cons, List.append_assoc,
      ih hjs, List.getLastD_cons]

/-- Where a piece starts, the pieces before it end. -/
theorem take_drop_append {i j k : ℕ} (l : List α) (hij : i ≤ j) (hjk : j ≤ k) :
    (l.take j).drop i ++ (l.take k).drop j = (l.take k).drop i := by
  rw [drop_eq_append (l.take k) hij, List.take_take, Nat.min_eq_left hjk]

/-- Every position is the end of a piece. -/
theorem exists_piece_of_mem (l : List α) {i j : ℕ} {js : List ℕ}
    (h : (i :: js).Pairwise (· ≤ ·)) (hj : j ∈ js) :
    ∃ xs x ys, chop l i js = xs ++ x :: ys ∧ (xs ++ [x]).flatten = (l.take j).drop i := by
  induction js generalizing i with
  | nil => exact absurd hj List.not_mem_nil
  | cons k js ih =>
    obtain ⟨hi, hjs⟩ := List.pairwise_cons.mp h
    rcases List.mem_cons.mp hj with rfl | hj
    · exact ⟨[], _, _, rfl, by simp⟩
    · obtain ⟨xs, x, ys, hchop, hflat⟩ := ih hjs hj
      refine ⟨(l.take k).drop i :: xs, x, ys, by rw [chop, hchop, List.cons_append], ?_⟩
      rw [List.cons_append, List.flatten_cons, hflat]
      exact take_drop_append l (hi k List.mem_cons_self) ((List.pairwise_cons.mp hjs).1 j hj)

/-- Every piece ends at a position. -/
theorem exists_mem_of_piece (l : List α) {i : ℕ} {js : List ℕ} {xs ys : List (List α)}
    {x : List α} (h : (i :: js).Pairwise (· ≤ ·)) (hchop : chop l i js = xs ++ x :: ys) :
    ∃ j ∈ js, (xs ++ [x]).flatten = (l.take j).drop i := by
  induction js generalizing i xs with
  | nil => exact absurd hchop (by simp [chop])
  | cons k js ih =>
    obtain ⟨hi, hjs⟩ := List.pairwise_cons.mp h
    rw [chop] at hchop
    rcases List.cons_eq_append_iff.mp hchop with ⟨rfl, hx⟩ | ⟨xs', rfl, hrest⟩
    · obtain ⟨rfl, -⟩ := List.cons.inj hx
      exact ⟨k, List.mem_cons_self, by simp⟩
    · obtain ⟨j, hj, hflat⟩ := ih hjs hrest
      refine ⟨j, List.mem_cons_of_mem k hj, ?_⟩
      rw [List.cons_append, List.flatten_cons, hflat]
      exact take_drop_append l (hi k List.mem_cons_self) ((List.pairwise_cons.mp hjs).1 j hj)

/-- Of two pieces, one ends before the other begins, unless they are the same. -/
theorem length_flatten_le_or {xs ys us vs : List (List α)} {x u : List α}
    (h : xs ++ x :: ys = us ++ u :: vs) :
    (xs ++ [x]).flatten.length ≤ us.flatten.length ∨
      (us ++ [u]).flatten.length ≤ (xs ++ [x]).flatten.length := by
  rcases List.append_eq_append_iff.mp h with ⟨as, rfl, has⟩ | ⟨bs, rfl, hbs⟩
  · rcases List.cons_eq_append_iff.mp has with ⟨rfl, hx⟩ | ⟨as', rfl, -⟩
    · obtain ⟨rfl, -⟩ := List.cons.inj hx
      exact Or.inr (by simp)
    · exact Or.inl (by simp)
  · rcases List.cons_eq_append_iff.mp hbs with ⟨rfl, hx⟩ | ⟨bs', rfl, -⟩
    · obtain ⟨rfl, -⟩ := List.cons.inj hx
      exact Or.inr (by simp)
    · exact Or.inr (by simp only [List.length_flatten, List.map_append, List.map_cons,
        List.map_nil, List.sum_append, List.sum_cons, List.sum_nil]; omega)

/-! ## Ranges -/

/-- The part of the list in a half-open range. -/
def slice (l : List α) (r : ℕ × ℕ) : List α := (l.take r.2).drop r.1

/-- The ranges from position `i` on that end at the positions `js`. -/
def ranges : ℕ → List ℕ → List (ℕ × ℕ)
  | _, [] => []
  | i, j :: js => (i, j) :: ranges j js

/-- The elements stand at ranges that follow one another, from `lo` to `hi`. -/
def Tiles {β : Type*} (range : β → ℕ × ℕ) : ℕ → List β → ℕ → Prop
  | lo, [], hi => lo = hi
  | lo, x :: xs, hi => (range x).1 = lo ∧ Tiles range (range x).2 xs hi

theorem chop_eq (l : List α) (i : ℕ) (js : List ℕ) : chop l i js = (ranges i js).map (slice l) := by
  induction js generalizing i with
  | nil => rfl
  | cons j js ih => rw [chop, ranges, List.map_cons, ih]; rfl

theorem map_snd_ranges (i : ℕ) (js : List ℕ) : (ranges i js).map Prod.snd = js := by
  induction js generalizing i with
  | nil => rfl
  | cons j js ih => rw [ranges, List.map_cons, ih]

/-- **The ranges follow one another.** -/
theorem tiles_ranges (i : ℕ) (js : List ℕ) : Tiles id i (ranges i js) (js.getLastD i) := by
  induction js generalizing i with
  | nil => rfl
  | cons j js ih =>
    rw [List.getLastD_cons]
    exact ⟨rfl, ih j⟩

/-- Where the positions ascend, no range is empty. -/
theorem lt_of_mem_ranges {i : ℕ} {js : List ℕ} (h : (i :: js).Pairwise (· < ·)) {r : ℕ × ℕ}
    (hr : r ∈ ranges i js) : r.1 < r.2 := by
  induction js generalizing i with
  | nil => exact absurd hr List.not_mem_nil
  | cons j js ih =>
    obtain ⟨hi, hjs⟩ := List.pairwise_cons.mp h
    rcases List.mem_cons.mp hr with rfl | hr
    · exact hi j List.mem_cons_self
    · exact ih hjs hr

section Tiles

variable {β : Type*} {range : β → ℕ × ℕ}

theorem tiles_append {lo hi : ℕ} {xs ys : List β} :
    Tiles range lo (xs ++ ys) hi ↔ ∃ mid, Tiles range lo xs mid ∧ Tiles range mid ys hi := by
  induction xs generalizing lo with
  | nil => simp [Tiles]
  | cons x xs ih =>
    rw [List.cons_append, Tiles, ih]
    constructor
    · rintro ⟨hx, mid, hxs, hys⟩
      exact ⟨mid, ⟨hx, hxs⟩, hys⟩
    · rintro ⟨mid, ⟨hx, hxs⟩, hys⟩
      exact ⟨hx, mid, hxs, hys⟩

theorem tiles_concat {lo hi : ℕ} {xs : List β} {x : β} :
    Tiles range lo (xs ++ [x]) hi ↔ Tiles range lo xs (range x).1 ∧ (range x).2 = hi := by
  rw [tiles_append]
  simp [Tiles]

/-- A tiling by ranges goes upwards. -/
theorem Tiles.le {lo hi : ℕ} {xs : List β} (h : Tiles range lo xs hi)
    (hle : ∀ x ∈ xs, (range x).1 ≤ (range x).2) : lo ≤ hi := by
  induction xs generalizing lo with
  | nil => exact le_of_eq h
  | cons x xs ih =>
    obtain ⟨rfl, hxs⟩ := h
    exact (hle x List.mem_cons_self).trans (ih hxs fun y hy ↦ hle y (List.mem_cons_of_mem x hy))

/-- **What stands at ranges that tile a range** is, put together, what stands there. -/
theorem Tiles.flatten_slices {lo hi : ℕ} {xs : List β} (h : Tiles range lo xs hi)
    (hle : ∀ x ∈ xs, (range x).1 ≤ (range x).2) (l : List α) :
    (xs.map fun x ↦ slice l (range x)).flatten = slice l (lo, hi) := by
  induction xs generalizing lo with
  | nil =>
    obtain rfl : lo = hi := h
    rw [slice, List.drop_eq_nil_of_le (List.length_take_le lo l)]
    rfl
  | cons x xs ih =>
    obtain ⟨rfl, hxs⟩ := h
    have hrest : ∀ y ∈ xs, (range y).1 ≤ (range y).2 :=
      fun y hy ↦ hle y (List.mem_cons_of_mem x hy)
    rw [List.map_cons, List.flatten_cons, ih hxs hrest]
    exact take_drop_append l (hle x List.mem_cons_self) (hxs.le hrest)

end Tiles

/-! ## Following an element -/

/-- An element that is not in the rest lies in a piece. -/
theorem exists_piece {ps : List (List α)} {rest x y : List α} {a : α}
    (h : ps.flatten ++ rest = x ++ a :: y) (ha : a ∉ rest) :
    ∃ qs p rs u v, ps = qs ++ p :: rs ∧ p = u ++ a :: v ∧ x = qs.flatten ++ u ∧
      y = v ++ (rs.flatten ++ rest) := by
  induction ps generalizing x with
  | nil =>
    rw [List.flatten_nil, List.nil_append] at h
    exact absurd (h ▸ List.mem_append_right x List.mem_cons_self) ha
  | cons p ps ih =>
    rw [List.flatten_cons, List.append_assoc] at h
    rcases List.append_eq_append_iff.mp h with ⟨as, rfl, has⟩ | ⟨bs, rfl, hbs⟩
    · obtain ⟨qs, q, rs, u, v, rfl, rfl, rfl, rfl⟩ := ih has
      exact ⟨p :: qs, u ++ a :: v, rs, u, v, rfl, rfl, by simp, rfl⟩
    · rcases List.cons_eq_append_iff.mp hbs with ⟨rfl, hnil⟩ | ⟨bs', rfl, rfl⟩
      · obtain ⟨qs, q, rs, u, v, rfl, rfl, hx, rfl⟩ := ih (x := []) hnil
        refine ⟨(x ++ []) :: qs, u ++ a :: v, rs, u, v, rfl, rfl, ?_, rfl⟩
        rw [List.flatten_cons, List.append_assoc, ← hx, List.append_nil, List.append_nil]
      · exact ⟨[], x ++ a :: bs', ps, x, bs', rfl, rfl, by simp, rfl⟩

/-- **A marked element is known by the number of marked elements before it.** -/
theorem append_cons_inj {p : α → Bool} {x x' y y' : List α} {a a' : α} (ha : p a = true)
    (ha' : p a' = true) (h : x ++ a :: y = x' ++ a' :: y') (hc : x.countP p = x'.countP p) :
    x = x' ∧ a = a' ∧ y = y' := by
  rcases List.append_eq_append_iff.mp h with ⟨as, rfl, has⟩ | ⟨bs, rfl, hbs⟩
  · rcases List.cons_eq_append_iff.mp has with ⟨rfl, hx⟩ | ⟨as', rfl, -⟩
    · obtain ⟨rfl, rfl⟩ := List.cons.inj hx
      exact ⟨(List.append_nil x).symm, rfl, rfl⟩
    · rw [List.countP_append, List.countP_cons_of_pos ha] at hc
      omega
  · rcases List.cons_eq_append_iff.mp hbs with ⟨rfl, hx⟩ | ⟨bs', rfl, -⟩
    · obtain ⟨rfl, rfl⟩ := List.cons.inj hx
      exact ⟨List.append_nil x', rfl, rfl⟩
    · rw [List.countP_append, List.countP_cons_of_pos ha'] at hc
      omega

/-- Where marked elements are separated by a separator somewhere, two that are next to each other
are separated by separators only. -/
theorem exists_adjacent {p : α → Bool} {n : α} {a b : α} {w : List α} (ha : p a = true)
    (hb : p b = true) (hw : ∀ c ∈ w, p c = true ∨ c = n) (hn : n ∈ w) :
    ∃ x a' k b' y, a :: w ++ [b] = x ++ a' :: List.replicate (k + 1) n ++ b' :: y ∧
      p a' = true ∧ p b' = true := by
  -- `k` separators have been read since the marked element `a`
  suffices hgen : ∀ (k : ℕ) (a : α), p a = true → (n ∈ w ∨ 0 < k) → ∃ x a' k' b' y,
      a :: (List.replicate k n ++ w) ++ [b] = x ++ a' :: List.replicate (k' + 1) n ++ b' :: y ∧
      p a' = true ∧ p b' = true from hgen 0 a ha (Or.inl hn)
  clear hn ha a
  induction w with
  | nil =>
    intro k a ha hk
    obtain ⟨k, rfl⟩ : ∃ k', k = k' + 1 :=
      ⟨k - 1, by have := hk.resolve_left List.not_mem_nil; omega⟩
    exact ⟨[], a, k, b, [], by simp, ha, hb⟩
  | cons c w ih =>
    intro k a ha hk
    have ih := ih fun d hd ↦ hw d (List.mem_cons_of_mem c hd)
    by_cases hc : c = n
    · obtain ⟨x, a', k', b', y, heq, ha', hb'⟩ := ih (k + 1) a ha (Or.inr (Nat.succ_pos k))
      refine ⟨x, a', k', b', y, ?_, ha', hb'⟩
      rw [← heq, hc, List.replicate_succ', List.append_assoc, List.singleton_append]
    · have hpc : p c = true := (hw c List.mem_cons_self).resolve_right hc
      rcases Nat.eq_zero_or_pos k with rfl | hk'
      · have hmem : n ∈ w := by
          rcases hk with hk | hk
          · exact (List.mem_cons.mp hk).resolve_left (Ne.symm hc)
          · exact absurd hk (Nat.lt_irrefl 0)
        obtain ⟨x, a', k', b', y, heq, ha', hb'⟩ := ih 0 c hpc (Or.inl hmem)
        refine ⟨a :: x, a', k', b', y, ?_, ha', hb'⟩
        rw [List.replicate_zero, List.nil_append] at heq ⊢
        rw [List.cons_append, heq]
        simp
      · obtain ⟨k, rfl⟩ : ∃ k', k = k' + 1 := ⟨k - 1, by omega⟩
        exact ⟨[], a, k, c, w ++ [b], by simp, ha, hpc⟩

/-! ## Trimming -/

theorem dropWhile_append_cons {p : α → Bool} {a : α} (ha : ¬p a = true) (x y : List α) :
    (x ++ a :: y).dropWhile p = x.dropWhile p ++ a :: y := by
  induction x with
  | nil => rw [List.nil_append, List.dropWhile_cons_of_neg ha, List.dropWhile_nil, List.nil_append]
  | cons c x ih =>
    rw [List.cons_append, List.dropWhile_cons, List.dropWhile_cons, ih]
    split <;> rfl

theorem rdropWhile_append_cons {p : α → Bool} {a : α} (ha : ¬p a = true) (x y : List α) :
    (x ++ a :: y).rdropWhile p = x ++ a :: y.rdropWhile p := by
  rw [List.rdropWhile, List.reverse_append, List.reverse_cons, List.append_assoc,
    List.singleton_append, dropWhile_append_cons ha, List.reverse_append, List.reverse_cons,
    List.reverse_reverse, List.append_assoc, List.singleton_append, ← List.rdropWhile]

/-- What trimming takes off both ends. -/
theorem exists_trim (p : α → Bool) (l : List α) : ∃ u v,
    l = u ++ (l.rdropWhile p).dropWhile p ++ v ∧ (∀ c ∈ u, p c = true) ∧ ∀ c ∈ v, p c = true := by
  refine ⟨(l.rdropWhile p).takeWhile p, l.rtakeWhile p, ?_, fun c ↦ List.mem_takeWhile_imp,
    fun c ↦ List.mem_rtakeWhile_imp⟩
  rw [List.takeWhile_append_dropWhile, List.rdropWhile_append_rtakeWhile]

end Pieces
