import Mathlib.Order.Lattice
import Mathlib.Data.List.Pairwise
import Mathlib.Data.List.Nodup

/-!
# Collections in key order

A `KeyedList key` holds at most one entry for each key, in the order of the keys.  The order is
part of the type, so two entries with one key are one entry (`eq_of_key`).  `insert` replaces the
entry under a key and `erase` takes it out; both are described by what is a member afterwards.
-/

set_option autoImplicit false

universe u v

/-- A list of entries whose keys ascend. -/
structure KeyedList {α : Type u} {κ : Type v} [LinearOrder κ] (key : α → κ) where
  toList : List α
  /-- The keys ascend. -/
  sorted : (toList.map key).Pairwise (· < ·)

namespace KeyedList

variable {α : Type u} {κ : Type v} [LinearOrder κ] {key : α → κ}

instance : Membership α (KeyedList key) := ⟨fun l a ↦ a ∈ l.toList⟩

instance : EmptyCollection (KeyedList key) := ⟨⟨[], List.Pairwise.nil⟩⟩

theorem mem_def {a : α} {l : KeyedList key} : a ∈ l ↔ a ∈ l.toList := Iff.rfl

@[simp] theorem notMem_empty (a : α) : a ∉ (∅ : KeyedList key) := List.not_mem_nil

/-- **A key has one entry.** -/
theorem eq_of_key {l : KeyedList key} {a b : α} (ha : a ∈ l) (hb : b ∈ l) (h : key a = key b) :
    a = b := List.inj_on_of_nodup_map (l.sorted.imp ne_of_lt) ha hb h

/-- Put the entry in its place, and the one that had its key out. -/
def insert (a : α) (l : KeyedList key) : KeyedList key where
  toList := l.toList.filter (key · < key a) ++ a :: l.toList.filter (key a < key ·)
  sorted := by
    have hsub : ∀ p : α → Bool, ((l.toList.filter p).map key).Pairwise (· < ·) := fun p ↦
      l.sorted.sublist (List.filter_sublist.map key)
    rw [List.map_append, List.map_cons, List.pairwise_append, List.pairwise_cons]
    refine ⟨hsub _, ⟨fun k hk ↦ ?_, hsub _⟩, fun k hk k' hk' ↦ ?_⟩
    · obtain ⟨b, hb, rfl⟩ := List.mem_map.mp hk
      simpa using (List.mem_filter.mp hb).2
    · obtain ⟨b, hb, rfl⟩ := List.mem_map.mp hk
      have hlt : key b < key a := by simpa using (List.mem_filter.mp hb).2
      rcases List.mem_cons.mp hk' with rfl | hk'
      · exact hlt
      · obtain ⟨c, hc, rfl⟩ := List.mem_map.mp hk'
        exact hlt.trans (by simpa using (List.mem_filter.mp hc).2)

/-- Take the entry under a key out. -/
def erase (k : κ) (l : KeyedList key) : KeyedList key where
  toList := l.toList.filter (key · ≠ k)
  sorted := l.sorted.sublist (List.filter_sublist.map key)

theorem mem_insert {a b : α} {l : KeyedList key} :
    b ∈ l.insert a ↔ b = a ∨ b ∈ l ∧ key b ≠ key a := by
  simp only [mem_def, insert, List.mem_append, List.mem_cons, List.mem_filter, decide_eq_true_eq,
    ne_iff_lt_or_gt]
  tauto

theorem mem_erase {k : κ} {b : α} {l : KeyedList key} : b ∈ l.erase k ↔ b ∈ l ∧ key b ≠ k := by
  simp [mem_def, erase]

end KeyedList
