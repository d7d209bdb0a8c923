import Mathlib.Data.List.Infix
import Mathlib.Data.List.Dedup
import Mathlib.Data.List.Basic

/-!
# Trees of values addressed by paths

A hierarchical store keeps a value at each leaf of a tree whose edges carry keys.  Such a tree is
represented here by the list of its leaves, each with the path that leads to it.  `snapshot p`
reads the subtree below a path, `setValue p v` replaces the whole subtree below `p` by `v` — and
with it any leaf *above* `p`, which turns into an inner node — and `removeValue p` deletes the
subtree.

The laws are the ones a reader of such a store uses: a snapshot at the written path is what was
written, a snapshot at a path that is neither above nor below it is untouched, and a snapshot
above it sees the same write at the remaining path.
-/

set_option autoImplicit false

namespace PathTree

universe u v

variable {κ : Type u} {ν : Type v}

/-- A tree, as the list of its leaves with their paths. -/
abbrev Tree (κ : Type u) (ν : Type v) := List (List κ × ν)

/-- The value, when the tree is a single leaf. -/
def leaf? : Tree κ ν → Option ν
  | [([], v)] => some v
  | _ => none

theorem leaf?_eq_some {t : Tree κ ν} {v : ν} : leaf? t = some v ↔ t = [([], v)] := by
  constructor
  · intro h
    rw [leaf?.eq_def] at h
    split at h
    · rw [Option.some_inj] at h; rw [h]
    · exact absurd h (by simp)
  · rintro rfl; rfl

/-- The tree has inner nodes below its root: it is more than a single value. -/
def HasChildren (t : Tree κ ν) : Prop := ∃ e ∈ t, e.1 ≠ []

instance (t : Tree κ ν) : Decidable (HasChildren t) :=
  inferInstanceAs (Decidable (∃ e ∈ t, e.1 ≠ []))

/-! ## Paths -/

/-- The two paths lie on one branch: one of them leads through the other. -/
def Meet (p q : List κ) : Prop := p <+: q ∨ q <+: p

theorem Meet.symm {p q : List κ} (h : Meet p q) : Meet q p := Or.symm h

theorem meet_append_iff {p q r : List κ} : Meet (p ++ q) (p ++ r) ↔ Meet q r := by
  rw [Meet, Meet, List.prefix_append_right_inj, List.prefix_append_right_inj]

/-- Two paths that part at some key have no branch in common. -/
theorem not_meet_append_cons (p : List κ) {q r : List κ} {a b : κ} (h : a ≠ b) :
    ¬Meet (p ++ a :: q) (p ++ b :: r) := by
  rw [meet_append_iff, Meet]
  rintro (⟨t, ht⟩ | ⟨t, ht⟩) <;> simp_all

theorem not_meet_cons {q r : List κ} {a b : κ} (h : a ≠ b) : ¬Meet (a :: q) (b :: r) :=
  not_meet_append_cons [] h

theorem Meet.of_append_left {p q r : List κ} (h : Meet p (q ++ r)) : Meet p q := by
  rcases h with h | h
  · exact (List.prefix_or_prefix_of_prefix h (List.prefix_append q r))
  · exact Or.inr ((List.prefix_append q r).trans h)

variable [DecidableEq κ]

instance (p q : List κ) : Decidable (Meet p q) := inferInstanceAs (Decidable (p <+: q ∨ q <+: p))

/-- What is left of the path `q` below `p`, if `q` passes through `p`. -/
def below : List κ → List κ → Option (List κ)
  | [], q => some q
  | _ :: _, [] => none
  | a :: p, b :: q => if a = b then below p q else none

theorem below_eq_some {p q r : List κ} : below p q = some r ↔ q = p ++ r := by
  induction p generalizing q with
  | nil => simp [below, eq_comm]
  | cons a p ih =>
    cases q with
    | nil => simp [below]
    | cons b q =>
      rw [below]
      split
      · rename_i h; subst h; rw [ih]; simp
      · rename_i h
        simp only [List.cons_append, List.cons.injEq, reduceCtorEq, false_iff, not_and]
        exact fun hb ↦ absurd hb.symm h

@[simp] theorem below_append (p r : List κ) : below p (p ++ r) = some r :=
  below_eq_some.mpr rfl

theorem below_eq_none {p q : List κ} : below p q = none ↔ ¬p <+: q := by
  rw [Option.eq_none_iff_forall_ne_some]
  constructor
  · rintro h ⟨r, rfl⟩
    exact h r (below_append p r)
  · intro h r hr
    exact h ⟨r, (below_eq_some.mp hr).symm⟩

theorem below_append_left (p r q : List κ) :
    below (p ++ r) q = (below p q).bind (below r) := by
  induction p generalizing q with
  | nil => rfl
  | cons a p ih =>
    cases q with
    | nil => rfl
    | cons b q =>
      rw [List.cons_append, below, below]
      split
      · exact ih q
      · rfl

/-! ## Reading and writing -/

/-- The subtree below `p`. -/
def snapshot (p : List κ) (t : Tree κ ν) : Tree κ ν :=
  t.filterMap fun e ↦ (below p e.1).map fun r ↦ (r, e.2)

/-- Replace everything below `p` by `v`. -/
def setValue (p : List κ) (v t : Tree κ ν) : Tree κ ν :=
  (t.filter fun e ↦ ¬Meet p e.1) ++ v.map fun e ↦ (p ++ e.1, e.2)

/-- Delete everything below `p`. -/
def removeValue (p : List κ) (t : Tree κ ν) : Tree κ ν := t.filter fun e ↦ ¬p <+: e.1

theorem mem_snapshot {p r : List κ} {v : ν} {t : Tree κ ν} :
    (r, v) ∈ snapshot p t ↔ (p ++ r, v) ∈ t := by
  simp only [snapshot, List.mem_filterMap, Option.map_eq_some_iff, below_eq_some, Prod.mk.injEq]
  constructor
  · rintro ⟨⟨q, w⟩, hq, r', rfl, rfl, rfl⟩
    exact hq
  · intro h
    exact ⟨(p ++ r, v), h, r, rfl, rfl, rfl⟩

theorem snapshot_append_tree (p : List κ) (t t' : Tree κ ν) :
    snapshot p (t ++ t') = snapshot p t ++ snapshot p t' := List.filterMap_append

@[simp] theorem snapshot_nil (t : Tree κ ν) : snapshot [] t = t := by
  simp [snapshot, below]

/-- A leaf one level down is seen under its own key. -/
theorem snapshot_leaf (a k : κ) (v : ν) (t : Tree κ ν) :
    snapshot [a] (([k], v) :: t)
      = if a = k then ([], v) :: snapshot [a] t else snapshot [a] t := by
  by_cases h : a = k <;> simp [snapshot, below, h]

/-- **A snapshot of a snapshot** is the snapshot at the longer path. -/
theorem snapshot_snapshot (p r : List κ) (t : Tree κ ν) :
    snapshot r (snapshot p t) = snapshot (p ++ r) t := by
  rw [snapshot, snapshot, snapshot, List.filterMap_filterMap]
  refine List.filterMap_congr fun e _ ↦ ?_
  rw [below_append_left]
  cases below p e.1 <;> rfl

theorem snapshot_map_append (p : List κ) (v : Tree κ ν) :
    snapshot p (v.map fun e ↦ (p ++ e.1, e.2)) = v := by
  simp [snapshot, List.filterMap_map]

theorem snapshot_map_eq_nil {p q : List κ} (h : ¬Meet p q) (v : Tree κ ν) :
    snapshot q (v.map fun e ↦ (p ++ e.1, e.2)) = [] := by
  rw [snapshot, List.filterMap_eq_nil_iff]
  intro e he
  obtain ⟨f, -, rfl⟩ := List.mem_map.mp he
  rw [Option.map_eq_none_iff, below_eq_none]
  exact fun hq ↦ h (Meet.of_append_left (Or.inl hq)).symm

/-- What is there after a write was there before, on another branch, or has been written. -/
theorem mem_setValue {p q : List κ} {l : ν} {v t : Tree κ ν} (h : (q, l) ∈ setValue p v t) :
    (q, l) ∈ t ∧ ¬Meet p q ∨ ∃ r, (r, l) ∈ v ∧ q = p ++ r := by
  rcases List.mem_append.mp h with h | h
  · obtain ⟨hmem, hmeet⟩ := List.mem_filter.mp h
    exact Or.inl ⟨hmem, by simpa using hmeet⟩
  · obtain ⟨⟨r, l'⟩, hr, he⟩ := List.mem_map.mp h
    obtain ⟨rfl, rfl⟩ := Prod.mk.inj he
    exact Or.inr ⟨r, hr, rfl⟩

/-- **What was written is what is read back.** -/
@[simp] theorem snapshot_setValue_self (p : List κ) (v t : Tree κ ν) :
    snapshot p (setValue p v t) = v := by
  rw [setValue, snapshot_append_tree, snapshot_map_append]
  have h : snapshot p (t.filter fun e ↦ ¬Meet p e.1) = [] := by
    rw [snapshot, List.filterMap_eq_nil_iff]
    intro e he
    rw [Option.map_eq_none_iff, below_eq_none]
    exact fun hp ↦ by simp [Meet, hp] at he
  rw [h, List.nil_append]

/-- Filtering out leaves that are not below `q` does not change what is seen below `q`. -/
theorem snapshot_filter {q : List κ} {t : Tree κ ν} (keep : List κ → Bool)
    (h : ∀ r, keep (q ++ r) = true) : snapshot q (t.filter fun e ↦ keep e.1) = snapshot q t := by
  rw [snapshot, snapshot, List.filterMap_filter]
  refine List.filterMap_congr fun e _ ↦ ?_
  split
  · rfl
  · rename_i hk
    have hn : below q e.1 = none := by
      rw [below_eq_none]
      rintro ⟨r, hr⟩
      exact hk (hr ▸ h r)
    rw [hn]; rfl

/-- **The frame rule**: a write leaves every path on another branch as it was. -/
theorem snapshot_setValue_of_not_meet {p q : List κ} (h : ¬Meet p q) (v t : Tree κ ν) :
    snapshot q (setValue p v t) = snapshot q t := by
  rw [setValue, snapshot_append_tree, snapshot_map_eq_nil h, List.append_nil]
  refine snapshot_filter (fun r ↦ decide ¬Meet p r) fun r ↦ ?_
  simpa using fun hm ↦ h (Meet.of_append_left hm)

/-- Above the written path the same write is seen, at the path that remains. -/
theorem snapshot_setValue_above (p r : List κ) (v t : Tree κ ν) :
    snapshot p (setValue (p ++ r) v t) = setValue r v (snapshot p t) := by
  rw [setValue, setValue, snapshot_append_tree]
  congr 1
  · rw [snapshot, snapshot, List.filterMap_filter, List.filter_filterMap]
    refine List.filterMap_congr fun e _ ↦ ?_
    cases hb : below p e.1 with
    | none => simp
    | some s =>
      rw [below_eq_some.mp hb]
      by_cases hm : Meet r s <;> simp [meet_append_iff, hm, Option.filter]
  · rw [snapshot, List.filterMap_map, ← List.filterMap_eq_map]
    refine List.filterMap_congr fun e _ ↦ ?_
    simp [List.append_assoc]

/-- Above the deleted path the same deletion is seen. -/
theorem snapshot_removeValue_above (p r : List κ) (t : Tree κ ν) :
    snapshot p (removeValue (p ++ r) t) = removeValue r (snapshot p t) := by
  rw [removeValue, removeValue, snapshot, snapshot, List.filterMap_filter, List.filter_filterMap]
  refine List.filterMap_congr fun e _ ↦ ?_
  cases hb : below p e.1 with
  | none => simp
  | some s =>
    rw [below_eq_some.mp hb]
    by_cases hm : r <+: s <;> simp [List.prefix_append_right_inj, hm, Option.filter]

theorem snapshot_removeValue_of_not_meet {p q : List κ} (h : ¬Meet p q) (t : Tree κ ν) :
    snapshot q (removeValue p t) = snapshot q t := by
  refine snapshot_filter (fun r ↦ decide ¬p <+: r) fun r ↦ ?_
  simpa using fun hm ↦ h (Meet.of_append_left (Or.inl hm))

theorem snapshot_removeValue_self (p : List κ) (t : Tree κ ν) :
    snapshot p (removeValue p t) = [] := by
  rw [removeValue, snapshot, List.filterMap_eq_nil_iff]
  intro e he
  rw [Option.map_eq_none_iff, below_eq_none]
  exact fun hp ↦ by simp [hp] at he

/-- Where nothing is seen, nothing is seen after a removal. -/
theorem snapshot_removeValue_eq_nil {q : List κ} {t : Tree κ ν} (h : snapshot q t = [])
    (p : List κ) : snapshot q (removeValue p t) = [] := by
  rw [snapshot, List.filterMap_eq_nil_iff] at h ⊢
  exact fun e he ↦ h e (List.mem_of_mem_filter he)

/-! ## Children -/

/-- The keys of the children of the root. -/
def childKeys (t : Tree κ ν) : List κ := (t.filterMap fun e ↦ e.1.head?).dedup

/-- A key is a child's exactly if something is seen below it. -/
theorem mem_childKeys {k : κ} {t : Tree κ ν} : k ∈ childKeys t ↔ snapshot [k] t ≠ [] := by
  rw [childKeys, List.mem_dedup, List.mem_filterMap]
  constructor
  · rintro ⟨⟨q, v⟩, hq, hk⟩
    obtain ⟨r, rfl⟩ := List.head?_eq_some_iff.mp hk
    exact List.ne_nil_of_mem (mem_snapshot.mpr hq)
  · intro h
    obtain ⟨⟨r, v⟩, hr⟩ := List.exists_mem_of_ne_nil _ h
    exact ⟨([k] ++ r, v), mem_snapshot.mp hr, rfl⟩

theorem nodup_childKeys (t : Tree κ ν) : (childKeys t).Nodup := List.nodup_dedup _

/-- A tree with something below a key has children. -/
theorem hasChildren_of_snapshot_ne_nil {k : κ} {t : Tree κ ν} (h : snapshot [k] t ≠ []) :
    HasChildren t := by
  obtain ⟨⟨r, v⟩, hr⟩ := List.exists_mem_of_ne_nil _ h
  exact ⟨([k] ++ r, v), mem_snapshot.mp hr, by simp⟩

end PathTree
