import Mathlib.Data.Multiset.DershowitzManna
import Mathlib.Data.Sym.Card
import LandCap.Library.Runs

/-!
# A counter that is decremented in two steps

Several clients take units from one counter.  A client reads the value, is granted a unit when the
value is positive, and writes the value back less one in a second step, which may land late: what
it then writes is stale, and sets the counter back up.  So more units are granted than the counter
held.  How many more depends only on how many writes may be on their way at once.

`isGreatest_granted` is the answer: from the value `L`, with never more than `K` writes on their
way, exactly `(L + 1).multichoose K - 1` units can be granted, the number of multisets of `K` values
up to `L` less one.

* The upper bound is a descent (`outlook_land`).  Fill the places of the writes that are not on
  their way with the value of the counter: the writes on their way, each with the value it was read
  from, and these fillings are a multiset of `K` numbers up to `L`.  A read leaves this multiset
  alone, and a write that lands makes it smaller in the order of Dershowitz and Manna, whatever
  value it carries.
* The lower bound is a schedule (`exists_exhaust`).  It holds each write back until everything else
  is used up.
-/

set_option autoImplicit false

namespace StaleCounter

open Runs Multiset

/-- The counter, the writes on their way to it, and the number of units granted. -/
structure Counter where
  value : ℕ
  pending : Multiset ℕ
  granted : ℕ

/-- What happens to the counter. -/
inductive Event where
  /-- A client reads the value. -/
  | read
  /-- A write of the value `v` lands. -/
  | land (v : ℕ)

/-- A counter nothing has been taken from yet. -/
def Counter.start (value : ℕ) : Counter := { value := value, pending := 0, granted := 0 }

/-- A read of zero takes nothing. -/
def Counter.step (c : Counter) : Event → Option Counter
  | .read =>
    if 0 < c.value then
      some { c with pending := (c.value - 1) ::ₘ c.pending, granted := c.granted + 1 }
    else some c
  | .land v =>
    if v ∈ c.pending then some { c with value := v, pending := c.pending.erase v } else none

/-- At most `K` writes are on their way. -/
def AtMost (K : ℕ) (c : Counter) : Prop := card c.pending ≤ K

theorem step_land {c c' : Counter} {v : ℕ} (h : c.step (.land v) = some c') :
    v ∈ c.pending ∧ c' = { c with value := v, pending := c.pending.erase v } := by
  rw [Counter.step] at h
  split at h
  · rename_i hv; exact ⟨hv, (Option.some.inj h).symm⟩
  · exact absurd h (by simp)

theorem step_read_of_pos {c : Counter} (h : 0 < c.value) : c.step .read
    = some { c with pending := (c.value - 1) ::ₘ c.pending, granted := c.granted + 1 } := by
  rw [Counter.step, if_pos h]

theorem step_read_of_eq_zero {c : Counter} (h : c.value = 0) : c.step .read = some c := by
  rw [Counter.step, if_neg (by omega)]

/-! ## The descent -/

/-- The values the writes on their way were read from, and the value the missing ones would be
read from. -/
def outlook (K : ℕ) (c : Counter) : Multiset ℕ :=
  c.pending.map (· + 1) + replicate (K - card c.pending) c.value

/-- A multiset is not below itself. -/
theorem not_isDershowitzMannaLT_self (M : Multiset ℕ) : ¬M.IsDershowitzMannaLT M :=
  fun h ↦ (wellFounded_isDershowitzMannaLT (α := ℕ)).irrefl.irrefl M h

theorem outlook_read {K : ℕ} {c : Counter} (hpos : 0 < c.value) (h : card c.pending < K) :
    outlook K { c with pending := (c.value - 1) ::ₘ c.pending, granted := c.granted + 1 }
      = outlook K c := by
  obtain ⟨n, hn⟩ : ∃ n, K - card c.pending = n + 1 := ⟨K - card c.pending - 1, by omega⟩
  rw [outlook, outlook, map_cons, card_cons, Nat.sub_add_cancel hpos, hn,
    show K - (card c.pending + 1) = n by omega, replicate_succ, cons_add, add_cons]

/-- **A write that lands is a descent**, however stale it is. -/
theorem outlook_land {K v : ℕ} {c : Counter} (hv : v ∈ c.pending) :
    (outlook K { c with value := v, pending := c.pending.erase v }).IsDershowitzMannaLT
      (outlook K c) := by
  have hsplit : c.pending.map (· + 1) = (v + 1) ::ₘ (c.pending.erase v).map (· + 1) := by
    rw [← map_cons (· + 1), cons_erase hv]
  -- the writes that stay on their way are common to both; all that is new is below `v + 1`
  refine ⟨(c.pending.erase v).map (· + 1), replicate (K - card (c.pending.erase v)) v,
    (v + 1) ::ₘ replicate (K - card c.pending) c.value, cons_ne_zero, rfl, ?_, fun y hy ↦ ?_⟩
  · rw [outlook, hsplit, cons_add, add_cons]
  · exact ⟨v + 1, mem_cons_self _ _, by rw [eq_of_mem_replicate hy]; exact Nat.lt_succ_self v⟩

/-- The multisets of `K` numbers up to `L`. -/
def outlooks (L K : ℕ) : Finset (Multiset ℕ) :=
  ((Finset.range (L + 1)).sym K).map ⟨_, Sym.coe_injective⟩

theorem mem_outlooks {L K : ℕ} {M : Multiset ℕ} :
    M ∈ outlooks L K ↔ card M = K ∧ ∀ a ∈ M, a ≤ L := by
  rw [outlooks, Finset.mem_map]
  constructor
  · rintro ⟨N, hN, rfl⟩
    exact ⟨N.2, fun a ha ↦ Nat.le_of_lt_succ (Finset.mem_range.mp (Finset.mem_sym_iff.mp hN a ha))⟩
  · rintro ⟨hcard, hle⟩
    refine ⟨⟨M, hcard⟩, Finset.mem_sym_iff.mpr fun a ha ↦ ?_, rfl⟩
    exact Finset.mem_range.mpr (Nat.lt_succ_of_le (hle a ha))

theorem card_outlooks (L K : ℕ) : (outlooks L K).card = (L + 1).multichoose K := by
  have hrange : Finset.range (L + 1)
      = (Finset.univ : Finset (Fin (L + 1))).map Fin.valEmbedding := by
    ext a
    simp only [Finset.mem_range, Finset.mem_map, Finset.mem_univ, true_and, Fin.valEmbedding_apply,
      Fin.exists_iff, exists_prop, exists_eq_right]
  rw [outlooks, Finset.card_map, hrange, Finset.sym_map, Finset.card_map, Finset.sym_univ,
    Finset.card_univ, Sym.card_sym_fin_eq_multichoose]

open Classical in
/-- How many multisets are below a multiset. -/
noncomputable def rank (L K : ℕ) (M : Multiset ℕ) : ℕ :=
  ((outlooks L K).filter fun N ↦ N.IsDershowitzMannaLT M).card

theorem rank_lt {L K : ℕ} {M : Multiset ℕ} (hM : M ∈ outlooks L K) :
    rank L K M < (L + 1).multichoose K := by
  classical
  rw [← card_outlooks]
  exact Finset.card_lt_card
    (Finset.filter_ssubset.mpr ⟨M, hM, not_isDershowitzMannaLT_self M⟩)

theorem rank_lt_rank {L K : ℕ} {M N : Multiset ℕ} (hM : M ∈ outlooks L K)
    (h : M.IsDershowitzMannaLT N) : rank L K M < rank L K N := by
  classical
  refine Finset.card_lt_card (Finset.ssubset_iff.mpr ⟨M, ?_, ?_⟩)
  · exact fun hself ↦ not_isDershowitzMannaLT_self M (Finset.mem_filter.mp hself).2
  · refine Finset.insert_subset (Finset.mem_filter.mpr ⟨hM, h⟩) fun P hP ↦ ?_
    obtain ⟨hmem, hPM⟩ := Finset.mem_filter.mp hP
    exact Finset.mem_filter.mpr ⟨hmem, hPM.trans h⟩

theorem outlook_mem {L K : ℕ} {c : Counter} (hvalue : c.value ≤ L)
    (hpending : ∀ v ∈ c.pending, v < L) (hc : AtMost K c) : outlook K c ∈ outlooks L K := by
  refine mem_outlooks.mpr ⟨?_, fun a ha ↦ ?_⟩
  · rw [outlook, card_add, card_map, card_replicate]
    exact Nat.add_sub_cancel' hc
  · rcases mem_add.mp ha with ha | ha
    · obtain ⟨v, hv, rfl⟩ := mem_map.mp ha
      exact hpending v hv
    · exact eq_of_mem_replicate ha ▸ hvalue

/-! ## The upper bound -/

/-- The counter was started at `L`: no value exceeds it, and every unit granted is paid for by the
descent of its write, or will be when the write lands. -/
structure Paid (L K : ℕ) (c : Counter) : Prop where
  value : c.value ≤ L
  pending : ∀ v ∈ c.pending, v < L
  granted : c.granted + rank L K (outlook K c) < (L + 1).multichoose K + card c.pending

theorem paid_start (L K : ℕ) : Paid L K (.start L) where
  value := le_refl L
  pending v hv := absurd hv (notMem_zero v)
  granted := by
    have hmem : outlook K (.start L) ∈ outlooks L K :=
      outlook_mem (le_refl L) (fun v hv ↦ absurd hv (notMem_zero v)) (Nat.zero_le K)
    simpa [Counter.start] using rank_lt hmem

theorem Paid.read {L K : ℕ} {c c' : Counter} (h : Paid L K c) (hc' : AtMost K c')
    (hstep : c.step .read = some c') : Paid L K c' := by
  rcases Nat.eq_zero_or_pos c.value with hz | hpos
  · obtain rfl := Option.some.inj ((step_read_of_eq_zero hz).symm.trans hstep)
    exact h
  · obtain rfl := Option.some.inj ((step_read_of_pos hpos).symm.trans hstep)
    have hroom : card c.pending < K := by
      rw [AtMost, card_cons] at hc'
      exact hc'
    refine ⟨h.value, fun v hv ↦ ?_, ?_⟩
    · rcases mem_cons.mp hv with rfl | hv
      · have := h.value
        omega
      · exact h.pending v hv
    · have hg := h.granted
      rw [outlook_read hpos hroom]
      simp only [card_cons]
      omega

theorem AtMost.land {K v : ℕ} {c c' : Counter} (h : AtMost K c)
    (hstep : c.step (.land v) = some c') : AtMost K c' := by
  obtain ⟨-, rfl⟩ := step_land hstep
  exact (card_le_card (erase_le v c.pending)).trans h

theorem Paid.land {L K v : ℕ} {c c' : Counter} (h : Paid L K c) (hc : AtMost K c)
    (hstep : c.step (.land v) = some c') :
    Paid L K c' ∧ rank L K (outlook K c') < rank L K (outlook K c) := by
  obtain ⟨hv, hc'⟩ := step_land hstep
  have hvalue : c'.value ≤ L := hc' ▸ (h.pending v hv).le
  have hpending : ∀ w ∈ c'.pending, w < L := by
    rw [hc']
    exact fun w hw ↦ h.pending w (mem_of_mem_erase hw)
  have hlt : rank L K (outlook K c') < rank L K (outlook K c) :=
    rank_lt_rank (outlook_mem hvalue hpending (hc.land hstep)) (hc' ▸ outlook_land hv)
  refine ⟨⟨hvalue, hpending, ?_⟩, hlt⟩
  have hcard : card c'.pending + 1 = card c.pending := by
    rw [hc']
    exact card_erase_add_one hv
  have hgranted : c'.granted = c.granted := by rw [hc']
  have := h.granted
  omega

/-- Each write on its way is a descent still to come. -/
theorem Paid.card_le_rank {L K : ℕ} : ∀ {n : ℕ} {c : Counter}, Paid L K c → AtMost K c →
    card c.pending = n → n ≤ rank L K (outlook K c)
  | 0, _, _, _, _ => Nat.zero_le _
  | n + 1, c, h, hc, hn => by
    obtain ⟨v, hv⟩ := card_pos_iff_exists_mem.mp (show 0 < card c.pending by omega)
    have hstep : c.step (.land v) = some { c with value := v, pending := c.pending.erase v } :=
      if_pos hv
    obtain ⟨hpaid, hlt⟩ := h.land hc hstep
    have hcard : card (c.pending.erase v) = n := by
      have := card_erase_add_one hv
      omega
    have := hpaid.card_le_rank (hc.land hstep) hcard
    omega

/-- One event keeps the account. -/
theorem Paid.step {L K : ℕ} {c c' : Counter} {a : Event} (h : Paid L K c) (hc : AtMost K c)
    (hc' : AtMost K c') (hstep : c.step a = some c') : Paid L K c' := by
  cases a with
  | read => exact h.read hc' hstep
  | land v => exact (h.land hc hstep).1

theorem Paid.run {L K : ℕ} {c c' : Counter} {as : List Event} (h : Paid L K c)
    (hK : Throughout Counter.step (AtMost K) c as) (hrun : run Counter.step c as = some c') :
    Paid L K c' := by
  induction as generalizing c with
  | nil => exact Option.some.inj hrun ▸ h
  | cons a as ih =>
    obtain ⟨c₁, hstep, hrest⟩ := run_cons_eq_some.mp hrun
    have hc : AtMost K c := hK [] List.nil_prefix c rfl
    have hc₁ : AtMost K c₁ := hK.tail hstep [] List.nil_prefix c₁ rfl
    exact ih (h.step hc hc₁ hstep) (hK.tail hstep) hrest

/-- **The upper bound.**  With never more than `K` writes on their way, fewer units are granted
than there are multisets of `K` numbers up to `L`. -/
theorem granted_lt {L K : ℕ} {c : Counter} {as : List Event}
    (hrun : run Counter.step (.start L) as = some c)
    (hK : Throughout Counter.step (AtMost K) (.start L) as) :
    c.granted < (L + 1).multichoose K := by
  have h : Paid L K c := (paid_start L K).run hK hrun
  have hc : AtMost K c := hK as (List.prefix_refl as) c hrun
  have := h.card_le_rank hc rfl
  have := h.granted
  omega

/-! ## The lower bound -/

/-- **The schedule that holds every write back.**  With room for `m` more writes, the value `x`
can be used for one unit less than there are multisets of `m` numbers up to `x`; the writes that
were on their way still are. -/
theorem exists_exhaust {K m x g : ℕ} {V : Multiset ℕ} (hK : card V + m ≤ K) : ∃ as c,
    run Counter.step ⟨x, V, g⟩ as = some c ∧ Throughout Counter.step (AtMost K) ⟨x, V, g⟩ as ∧
      c.pending = V ∧ c.granted + 1 = g + (x + 1).multichoose m := by
  induction m generalizing x g V with
  | zero =>
    refine ⟨[], _, rfl, throughout_nil hK, rfl, ?_⟩
    rw [Nat.multichoose_zero_right]
  | succ m ihm =>
    induction x generalizing g with
    | zero =>
      refine ⟨[], _, rfl, throughout_nil (Nat.le_of_add_right_le hK), rfl, ?_⟩
      rw [Nat.multichoose_one]
    | succ x ihx =>
      -- a unit is taken, its write is held back while the room that is left is used up
      obtain ⟨as, c, hrun, hthrough, hpending, hgranted⟩ :=
        ihm (x := x + 1) (g := g + 1) (V := x ::ₘ V) (by rw [card_cons]; omega)
      -- then the write lands, and makes room
      obtain ⟨bs, d, hrun', hthrough', hpending', hgranted'⟩ := ihx (g := c.granted)
      have hread : Counter.step ⟨x + 1, V, g⟩ .read = some ⟨x + 1, x ::ₘ V, g + 1⟩ :=
        step_read_of_pos (Nat.succ_pos x)
      have hland : Counter.step c (.land x) = some ⟨x, V, c.granted⟩ := by
        rw [Counter.step, hpending, if_pos (mem_cons_self x V), erase_cons_head]
      refine ⟨.read :: (as ++ .land x :: bs), d, ?_, ?_, hpending', ?_⟩
      · rw [run_cons, hread, Option.bind_some, run_append, hrun, Option.bind_some, run_cons, hland,
          Option.bind_some, hrun']
      · refine .cons (Nat.le_of_add_right_le hK) hread
          (hthrough.append hrun (.cons ?_ hland hthrough'))
        rw [AtMost, hpending, card_cons]
        omega
      · rw [Nat.multichoose_succ_succ]
        omega

/-- **The worst case.**  From the value `L`, with never more than `K` writes on their way, the most
units that can be granted are one less than the multisets of `K` numbers up to `L`. -/
theorem isGreatest_granted (L K : ℕ) :
    IsGreatest {g | ∃ as c, run Counter.step (.start L) as = some c ∧
      Throughout Counter.step (AtMost K) (.start L) as ∧ c.granted = g}
      ((L + 1).multichoose K - 1) := by
  constructor
  · obtain ⟨as, c, hrun, hthrough, -, hgranted⟩ :=
      exists_exhaust (K := K) (m := K) (x := L) (g := 0) (V := 0) (by simp)
    exact ⟨as, c, hrun, hthrough, by omega⟩
  · rintro g ⟨as, c, hrun, hthrough, rfl⟩
    have := granted_lt hrun hthrough
    omega

end StaleCounter
