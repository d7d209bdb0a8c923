import LandCap.CapDatabase.Quota
import LandCap.Library.Simulation
import LandCap.Library.StaleCounter

/-!
# How far the photo quota can be overspent

`photoLimit` reads the quota and writes it back in a second step, so calls that overlap are granted
more photos than the quota allows (`CapDatabase/Quota.lean`).  This file says how many more, and
that the error only goes one way.

* `isGreatest_overspend` — from a quota of `L`, with never more than `K` decrements on their way to
  the server, the most calls that can be granted are `(L + 1).multichoose K - 1`.  For `K = 1` that
  is `L`; for two devices it is already `L * (L + 3) / 2`.
* `le_stored_add_granted` — whatever is interleaved and whatever fails, the quota that is left and
  the calls granted so far are together at least the quota at the start.  No unit is ever taken
  without a call that was granted it.

The first rests on `StaleCounter`: the node `users/u/photoLimit` and the decrements in flight are
such a counter (`Tallies`), and each system follows the other.
-/

set_option autoImplicit false

namespace LandCap

open PathTree Runs StaleCounter

/-! ## The runs -/

/-- At most `K` decrements of the limit of `u` are on their way. -/
def DecrementsAtMost (K : ℕ) (u : UserID) (s : Cloud) : Prop :=
  ∀ ids : Finset ℕ, (∀ j ∈ ids, ∃ n, s.inFlight j = some (.limitWrite u n)) → ids.card ≤ K

/-- No decrement of the limit of `u` fails. -/
def DecrementsLand (u : UserID) (s : Cloud) : Action → Prop
  | .fail id => ∀ n, s.inFlight id ≠ some (.limitWrite u n)
  | .call .. | .deliver _ => True

/-! ## The node as a counter -/

/-- The calls in `writers` are those with a decrement of `u` in flight, each with its value. -/
def Decrements (u : UserID) (s : Cloud) (writers : Finset ℕ) (value : ℕ → ℕ) : Prop :=
  ∀ j n, s.inFlight j = some (.limitWrite u n) ↔ j ∈ writers ∧ n = value j

/-- The limit of `u` and the decrements on their way to it are the counter `c`. -/
structure Tallies (u : UserID) (s : Cloud) (c : Counter) : Prop where
  noSetup : ∀ j user, s.inFlight j = some (.setupWrite user) → user.Key ≠ u
  stored : StoredLimit u c.value s.database
  granted : granted u s = c.granted
  pending : ∃ writers value, Decrements u s writers value ∧
    c.pending = writers.val.map value

section Step

variable {u : UserID} {s : Cloud} {c : Counter} {id : ℕ} {t : Task}

/-- A limit that is stored keeps `setupUser` from writing. -/
theorem key_ne_of_stored {n : ℤ} (hstored : StoredLimit u n s.database)
    (hset : ∀ j user, s.inFlight j = some (.setupWrite user) → user.Key ≠ u)
    (j : ℕ) (user : CapUser)
    (hj : (s.perform id t).inFlight j = some (.setupWrite user)) : user.Key ≠ u := by
  rcases Cloud.perform_inFlight hj (by simp) with ⟨-, hf⟩ | ⟨-, hf⟩
  · rintro rfl
    exact (Cloud.followUp_eq_setupWrite hf).2 (hasChildren_of_stored hstored)
  · exact hset j user hf

theorem tallies_of_idle {L : ℕ} (hs : s.Idle) (h : StoredLimit u L s.database) :
    Tallies u s (.start L) where
  noSetup j user := by simp [hs.inFlight]
  stored := h
  granted := by rw [LandCap.granted, hs.callbacks, List.countP_nil]; rfl
  pending := ⟨∅, fun _ ↦ 0, fun j n ↦ by simp [hs.inFlight], rfl⟩

/-- The counter has as many writes on their way as the node has decrements. -/
theorem Tallies.atMost_iff (h : Tallies u s c) {K : ℕ} :
    DecrementsAtMost K u s ↔ AtMost K c := by
  obtain ⟨writers, value, hwriters, hpending⟩ := h.pending
  rw [AtMost, hpending, Multiset.card_map]
  constructor
  · exact fun hK ↦ hK writers fun j hj ↦ ⟨value j, (hwriters j _).mpr ⟨hj, rfl⟩⟩
  · intro hK ids hids
    refine (Finset.card_le_card fun j hj ↦ ?_).trans hK
    obtain ⟨n, hn⟩ := hids j hj
    exact ((hwriters j n).mp hn).1

/-- Replacing a step that is not a decrement by another one changes nothing. -/
theorem Tallies.update (h : Tallies u s c) {t : Option Task}
    (hold : ∀ n, s.inFlight id ≠ some (.limitWrite u n)) (hnew : ∀ n, t ≠ some (.limitWrite u n))
    (hset : ∀ user, t = some (.setupWrite user) → user.Key ≠ u) :
    Tallies u { s with inFlight := Function.update s.inFlight id t } c where
  noSetup j user hj := by
    rcases update_eq_some hj with ⟨-, hj⟩ | ⟨-, hj⟩
    · exact hset user hj
    · exact h.noSetup j user hj
  stored := h.stored
  granted := h.granted
  pending := by
    obtain ⟨writers, value, hwriters, hpending⟩ := h.pending
    refine ⟨writers, value, fun j n ↦ (Iff.trans ?_ (hwriters j n)), hpending⟩
    rcases eq_or_ne j id with rfl | hne
    · simp only [Function.update_self]
      exact iff_of_false (hnew n) (hold n)
    · simp only [Function.update_of_ne hne]

theorem Tallies.call {call : Call} (h : Tallies u s c) (hid : s.inFlight id = none) :
    Tallies u { s with inFlight := Function.update s.inFlight id call.task } c := by
  refine h.update (fun n hn ↦ absurd (hid.symm.trans hn) nofun) (fun n ↦ ?_) fun user hu ↦ ?_
  · cases call <;> simp [Call.task]
  · cases call <;> simp [Call.task] at hu

/-- **A read of the limit is a read of the counter.** -/
theorem Tallies.read (h : Tallies u s c) (hid : s.inFlight id = some (.limitRead u)) :
    ∃ c', c.step .read = some c' ∧ Tallies u (s.perform id (.limitRead u)) c' := by
  obtain ⟨writers, value, hwriters, hpending⟩ := h.pending
  have hfollow := followUp_limitRead h.stored
  have hgrant := granted_limitRead id h.stored
  have hset : ∀ j user, (s.perform id (.limitRead u)).inFlight j = some (.setupWrite user) →
      user.Key ≠ u := key_ne_of_stored h.stored h.noSetup
  have hfresh : id ∉ writers := fun hmem ↦
    absurd (hid.symm.trans ((hwriters id _).mpr ⟨hmem, rfl⟩)) (by simp)
  have hkeep : ∀ {j}, j ≠ id → ∀ n : ℤ,
      (s.perform id (.limitRead u)).inFlight j = some (.limitWrite u n) ↔
        j ∈ writers ∧ n = value j := by
    intro j hne n
    refine Iff.trans ?_ (hwriters j n)
    rw [s.perform_inFlight_of_ne _ hne, Option.map_eq_some_iff]
    constructor
    · rintro ⟨t, ht, hn⟩
      rw [Task.notify_eq (by simp)] at hn
      exact hn ▸ ht
    · exact fun hn ↦ ⟨_, hn, rfl⟩
  rcases Nat.eq_zero_or_pos c.value with hz | hpos
  · refine ⟨c, step_read_of_eq_zero hz, hset, h.stored, ?_, writers, value, ?_, hpending⟩
    · rw [hgrant, if_neg (by omega), h.granted, Nat.add_zero]
    · intro j n
      rcases eq_or_ne j id with rfl | hne
      · rw [s.perform_inFlight_self, hfollow, if_neg (by omega)]
        exact iff_of_false (by simp) fun hj ↦ hfresh hj.1
      · exact hkeep hne n
  · refine ⟨_, step_read_of_pos hpos, hset, h.stored, ?_, insert id writers,
      Function.update value id (c.value - 1), ?_, ?_⟩
    · rw [hgrant, if_pos (by omega), h.granted]
    · intro j n
      rcases eq_or_ne j id with rfl | hne
      · rw [s.perform_inFlight_self, hfollow, if_pos (by omega), Function.update_self,
          Nat.cast_sub hpos]
        simp [eq_comm]
      · rw [hkeep hne, Function.update_of_ne hne]
        simp [hne]
    · rw [Finset.insert_val_of_notMem hfresh, Multiset.map_cons, Function.update_self, hpending]
      refine congrArg _ (Multiset.map_congr rfl fun j hj ↦ ?_)
      rw [Function.update_of_ne (ne_of_mem_of_not_mem hj hfresh)]

/-- **A decrement that arrives is a write that lands.** -/
theorem Tallies.land {n : ℤ} (h : Tallies u s c) (hid : s.inFlight id = some (.limitWrite u n)) :
    ∃ v : ℕ, n = v ∧ ∃ c', c.step (.land v) = some c' ∧
      Tallies u (s.perform id (.limitWrite u n)) c' := by
  obtain ⟨writers, value, hwriters, hpending⟩ := h.pending
  obtain ⟨hmem, rfl⟩ := (hwriters id n).mp hid
  have hv : value id ∈ c.pending := hpending ▸ Multiset.mem_map_of_mem value hmem
  refine ⟨value id, rfl, _, if_pos hv, key_ne_of_stored h.stored h.noSetup,
    storedLimit_limitWrite u _ _, ?_, writers.erase id, value, fun j m ↦ ?_, ?_⟩
  · rw [granted_perform id (by simp), h.granted]
  · rw [limitWrite_perform (by simp), hwriters, Finset.mem_erase, and_assoc]
  · rw [Finset.erase_val, Multiset.map_erase_of_mem _ _ hmem, hpending]

/-- A step that neither reads the limit nor writes it leaves the counter as it is. -/
theorem Tallies.other (h : Tallies u s c) (hid : s.inFlight id = some t) (hr : t ≠ .limitRead u)
    (hw : ∀ n, t ≠ .limitWrite u n) : Tallies u (s.perform id t) c where
  noSetup := key_ne_of_stored h.stored h.noSetup
  stored := storedLimit_write (fun user ht ↦ h.noSetup id user (ht ▸ hid)) hw h.stored
  granted := (granted_perform id hr).trans h.granted
  pending := by
    obtain ⟨writers, value, hwriters, hpending⟩ := h.pending
    refine ⟨writers, value, fun j n ↦ ?_, hpending⟩
    rw [limitWrite_perform hr, hwriters]
    refine and_iff_right_of_imp fun hj ↦ ?_
    rintro rfl
    exact hw _ (Option.some.inj (hid.symm.trans ((hwriters j n).mpr hj)))

/-- **The step lemma**: a step of the cloud is an event of the counter, or none. -/
theorem Tallies.step {s' : Cloud} {a : Action} (h : Tallies u s c) (ha : DecrementsLand u s a)
    (hstep : s.step a = some s') :
    Tallies u s' c ∨ ∃ e c', c.step e = some c' ∧ Tallies u s' c' := by
  cases a with
  | call id call =>
    obtain ⟨hid, rfl⟩ := Cloud.step_call hstep
    exact Or.inl (h.call hid)
  | fail id =>
    obtain rfl := Cloud.step_fail hstep
    exact Or.inl (h.update ha (by simp) (by simp))
  | deliver id =>
    obtain ⟨t, hid, rfl⟩ := Cloud.step_deliver hstep
    by_cases hr : t = .limitRead u
    · subst hr
      obtain ⟨c', hc', h'⟩ := h.read hid
      exact Or.inr ⟨.read, c', hc', h'⟩
    · by_cases hw : ∃ n, t = .limitWrite u n
      · obtain ⟨n, rfl⟩ := hw
        obtain ⟨v, -, c', hc', h'⟩ := h.land hid
        exact Or.inr ⟨.land v, c', hc', h'⟩
      · exact Or.inl (h.other hid hr fun n hn ↦ hw ⟨n, hn⟩)

end Step

/-- **The counter follows the cloud.** -/
theorem tallies_run {u : UserID} {K : ℕ} {s s' : Cloud} {c : Counter} {as : List Action}
    (h : Tallies u s c) (hland : Meets Cloud.step (DecrementsLand u) s as)
    (hK : Throughout Cloud.step (DecrementsAtMost K u) s as)
    (hrun : run Cloud.step s as = some s') :
    ∃ es c', run Counter.step c es = some c' ∧ Throughout Counter.step (AtMost K) c es ∧
      Tallies u s' c' := by
  have hatMost : ∀ s c, Tallies u s c → DecrementsAtMost K u s → AtMost K c :=
    fun _ _ h hK ↦ h.atMost_iff.mp hK
  have hstep : ∀ s a s' c, Tallies u s c → DecrementsLand u s a → DecrementsAtMost K u s →
      DecrementsAtMost K u s' → s.step a = some s' →
      ∃ es c', run Counter.step c es = some c' ∧ Meets Counter.step (fun _ _ ↦ True) c es ∧
        Throughout Counter.step (AtMost K) c es ∧ Tallies u s' c' := by
    intro s a s' c h ha hs hs' hstep
    rcases h.step ha hstep with h' | ⟨e, c', hc', h'⟩
    · exact ⟨[], c, rfl, trivial, throughout_nil (hatMost s c h hs), h'⟩
    · refine ⟨[e], c', run_cons_eq_some.mpr ⟨c', hc', rfl⟩, ⟨trivial, fun _ _ ↦ trivial⟩, ?_, h'⟩
      exact .cons (hatMost s c h hs) hc' (throughout_nil (hatMost s' c' h' hs'))
  obtain ⟨es, c', hes, -, hT, h'⟩ := run_follows hatMost hstep h hland hK hrun
  exact ⟨es, c', hes, hT, h'⟩

/-! ## Every schedule of the counter is one of the cloud -/

/-- The calls from `N` on have not been made. -/
def Unused (N : ℕ) (s : Cloud) : Prop := ∀ j, N ≤ j → s.inFlight j = none

theorem Unused.perform {N id : ℕ} {s : Cloud} (h : Unused N s) (hid : id < N) (t : Task) :
    Unused N (s.perform id t) := by
  intro j hj
  rw [s.perform_inFlight_of_ne t (by omega), h j hj, Option.map_none]

/-- A read of the counter is a call that reads the limit. -/
theorem exists_read {u : UserID} {s : Cloud} {c c' : Counter} {N K : ℕ} (h : Tallies u s c)
    (hN : Unused N s) (hK : AtMost K c) (hK' : AtMost K c') (hc : c.step .read = some c') :
    ∃ as s', run Cloud.step s as = some s' ∧ Meets Cloud.step (DecrementsLand u) s as ∧
      Throughout Cloud.step (DecrementsAtMost K u) s as ∧ Tallies u s' c' ∧ Unused (N + 1) s' := by
  obtain ⟨s₁, hs₁⟩ : ∃ s₁, s₁ =
      { s with inFlight := Function.update s.inFlight N (Call.photoLimit u).task } := ⟨_, rfl⟩
  have hcall : s.step (.call N (.photoLimit u)) = some s₁ := by
    rw [Cloud.step, if_pos (hN N le_rfl), hs₁]
  have h₁ : Tallies u s₁ c := hs₁ ▸ h.call (hN N le_rfl)
  have hread : s₁.inFlight N = some (.limitRead u) := by
    rw [hs₁]
    exact Function.update_self ..
  obtain ⟨c'', hc'', h₂⟩ := h₁.read hread
  obtain rfl : c' = c'' := Option.some.inj (hc.symm.trans hc'')
  have hdeliver := Cloud.step_deliver_of hread
  refine ⟨[.call N (.photoLimit u), .deliver N], _, ?_, ?_, ?_, h₂, ?_⟩
  · rw [run_cons, hcall, Option.bind_some, run_cons, hdeliver]
    rfl
  · exact ⟨trivial, fun _ _ ↦ ⟨trivial, fun _ _ ↦ trivial⟩⟩
  · exact .cons (h.atMost_iff.mpr hK) hcall (.cons (h₁.atMost_iff.mpr hK) hdeliver
      (throughout_nil (h₂.atMost_iff.mpr hK')))
  · refine Unused.perform (fun j hj ↦ ?_) (Nat.lt_succ_self N) _
    rw [hs₁]
    exact (Function.update_of_ne (by omega) _ _).trans (hN j (by omega))

/-- A write that lands is a decrement that arrives. -/
theorem exists_land {u : UserID} {s : Cloud} {c c' : Counter} {N K v : ℕ} (h : Tallies u s c)
    (hN : Unused N s) (hK : AtMost K c) (hK' : AtMost K c') (hc : c.step (.land v) = some c') :
    ∃ as s', run Cloud.step s as = some s' ∧ Meets Cloud.step (DecrementsLand u) s as ∧
      Throughout Cloud.step (DecrementsAtMost K u) s as ∧ Tallies u s' c' ∧ Unused N s' := by
  obtain ⟨writers, value, hwriters, hpending⟩ := h.pending
  obtain ⟨hv, -⟩ := step_land hc
  rw [hpending] at hv
  obtain ⟨id, hmem, rfl⟩ := Multiset.mem_map.mp hv
  have hid : s.inFlight id = some (.limitWrite u (value id)) := (hwriters id _).mpr ⟨hmem, rfl⟩
  obtain ⟨v, hv, c'', hc'', h'⟩ := h.land hid
  obtain rfl : value id = v := by exact_mod_cast hv
  obtain rfl : c' = c'' := Option.some.inj (hc.symm.trans hc'')
  have hdeliver := Cloud.step_deliver_of hid
  refine ⟨[.deliver id], _, ?_, ⟨trivial, fun _ _ ↦ trivial⟩, ?_, h', hN.perform ?_ _⟩
  · rw [run_cons, hdeliver]
    rfl
  · exact .cons (h.atMost_iff.mpr hK) hdeliver (throughout_nil (h'.atMost_iff.mpr hK'))
  · by_contra hge
    exact absurd ((hN id (by omega)).symm.trans hid) (by simp)

/-- **The cloud follows the counter.** -/
theorem exists_run_of_counter {u : UserID} {K : ℕ} {s : Cloud} {c c' : Counter} {es : List Event}
    (h : Tallies u s c) (hN : ∃ N, Unused N s)
    (hK : Throughout Counter.step (AtMost K) c es) (hrun : run Counter.step c es = some c') :
    ∃ as s', run Cloud.step s as = some s' ∧ Meets Cloud.step (DecrementsLand u) s as ∧
      Throughout Cloud.step (DecrementsAtMost K u) s as ∧ Tallies u s' c' := by
  have hstep : ∀ c e c' s, (Tallies u s c ∧ ∃ N, Unused N s) → True → AtMost K c → AtMost K c' →
      c.step e = some c' → ∃ as s', run Cloud.step s as = some s' ∧
        Meets Cloud.step (DecrementsLand u) s as ∧
        Throughout Cloud.step (DecrementsAtMost K u) s as ∧ Tallies u s' c' ∧ ∃ N, Unused N s' := by
    rintro c e c' s ⟨h, N, hN⟩ - hc hc' hstep
    cases e with
    | read =>
      obtain ⟨as, s', has, hmeets, hT, h', hN'⟩ := exists_read h hN hc hc' hstep
      exact ⟨as, s', has, hmeets, hT, h', N + 1, hN'⟩
    | land v =>
      obtain ⟨as, s', has, hmeets, hT, h', hN'⟩ := exists_land h hN hc hc' hstep
      exact ⟨as, s', has, hmeets, hT, h', N, hN'⟩
  obtain ⟨as, s', has, hmeets, hT, h', -⟩ :=
    run_follows (fun c s hR hc ↦ hR.1.atMost_iff.mpr hc) hstep ⟨h, hN⟩
      (Meets.of_mem (Q := fun _ ↦ True) fun _ _ ↦ trivial) hK hrun
  exact ⟨as, s', has, hmeets, hT, h'⟩

/-- **The worst case of the quota.**  From a quota of `L`, over every interleaving in which at most
`K` decrements are on their way at once and none of them is lost, the most calls that are granted
are `(L + 1).multichoose K - 1`. -/
theorem isGreatest_overspend {u : UserID} {L : ℕ} {s₀ : Cloud} (K : ℕ) (hs : s₀.Idle)
    (hL : StoredLimit u L s₀.database) :
    IsGreatest {g | ∃ as s, run Cloud.step s₀ as = some s ∧
      Meets Cloud.step (DecrementsLand u) s₀ as ∧
      Throughout Cloud.step (DecrementsAtMost K u) s₀ as ∧ granted u s = g}
      ((L + 1).multichoose K - 1) := by
  have h := tallies_of_idle hs hL
  constructor
  · obtain ⟨es, c, hes, hT, hg⟩ := (StaleCounter.isGreatest_granted L K).1
    obtain ⟨as, s, has, hland, hK, h'⟩ :=
      exists_run_of_counter h ⟨0, fun j _ ↦ hs.inFlight j⟩ hT hes
    exact ⟨as, s, has, hland, hK, h'.granted.trans hg⟩
  · rintro g ⟨as, s, has, hland, hK, rfl⟩
    obtain ⟨es, c, hes, hT, h'⟩ := tallies_run h hland hK has
    exact h'.granted ▸ (StaleCounter.isGreatest_granted L K).2 ⟨es, c, hes, hT, rfl⟩

/-- Two devices can be granted two photos on a quota of one. -/
theorem isGreatest_overspend_one :
    IsGreatest {g | ∃ as s, run Cloud.step cloudWithOne as = some s ∧
      Meets Cloud.step (DecrementsLand alice) cloudWithOne as ∧
      Throughout Cloud.step (DecrementsAtMost 2 alice) cloudWithOne as ∧ granted alice s = g}
      2 := by
  have hs : cloudWithOne.Idle := Cloud.idle_start _ _
  have h := isGreatest_overspend (u := alice) (L := 1) 2 hs (by decide)
  rwa [Nat.multichoose_two] at h

/-! ## Nothing is lost -/

/-- What is stored and what is about to be stored, each with the calls granted so far, make up the
quota `L`. -/
structure Lossless (u : UserID) (L : ℕ) (s : Cloud) : Prop where
  noSetup : ∀ j user, s.inFlight j = some (.setupWrite user) → user.Key ≠ u
  stored : ∃ n, 0 ≤ n ∧ StoredLimit u n s.database ∧ L ≤ n + granted u s
  pending : ∀ j n, s.inFlight j = some (.limitWrite u n) → 0 ≤ n ∧ L ≤ n + granted u s

theorem lossless_of_idle {u : UserID} {L : ℕ} {s : Cloud} (hs : s.Idle)
    (h : StoredLimit u L s.database) : Lossless u L s where
  noSetup j user := by simp [hs.inFlight]
  stored := ⟨L, by omega, h, by omega⟩
  pending j n := by simp [hs.inFlight]

theorem Lossless.update {u : UserID} {L id : ℕ} {s : Cloud} {t : Option Task} (h : Lossless u L s)
    (hnew : ∀ n, t ≠ some (.limitWrite u n))
    (hset : ∀ user, t ≠ some (.setupWrite user)) :
    Lossless u L { s with inFlight := Function.update s.inFlight id t } where
  noSetup j user hj := h.noSetup j user (update_eq_some_of_ne hj (hset user)).2
  stored := h.stored
  pending j n hj := h.pending j n (update_eq_some_of_ne hj (hnew n)).2

theorem Lossless.perform {u : UserID} {L id : ℕ} {s : Cloud} {t : Task} (h : Lossless u L s)
    (hid : s.inFlight id = some t) : Lossless u L (s.perform id t) := by
  obtain ⟨n, hn, hstored, hL⟩ := h.stored
  have hset : ∀ j user, (s.perform id t).inFlight j = some (.setupWrite user) → user.Key ≠ u :=
    key_ne_of_stored hstored h.noSetup
  by_cases hr : t = .limitRead u
  · subst hr
    have hfollow := followUp_limitRead hstored
    have hgrant := granted_limitRead id hstored
    have hmono : granted u s ≤ granted u (s.perform id (.limitRead u)) := by omega
    refine ⟨hset, ⟨n, hn, hstored, by omega⟩, fun j m hj ↦ ?_⟩
    rcases Cloud.perform_inFlight hj (by simp) with ⟨-, hf⟩ | ⟨-, hf⟩
    · -- what is about to be written is one less, for the call that has just been granted
      rw [hfollow] at hf
      split at hf
      · rename_i hpos
        obtain rfl : n - 1 = m := by simpa using hf
        rw [if_pos hpos] at hgrant
        omega
      · exact absurd hf (by simp)
    · obtain ⟨hm, hLm⟩ := h.pending j m hf
      omega
  · have hgrant : granted u (s.perform id t) = granted u s := granted_perform id hr
    refine ⟨hset, ?_, fun j m hj ↦ ?_⟩
    · by_cases hw : ∃ m, t = .limitWrite u m
      · obtain ⟨m, rfl⟩ := hw
        obtain ⟨hm, hLm⟩ := h.pending id m hid
        exact ⟨m, hm, storedLimit_limitWrite u m s.database, by omega⟩
      · push Not at hw
        exact ⟨n, hn, storedLimit_write (fun user ht ↦ h.noSetup id user (ht ▸ hid)) hw hstored,
          by omega⟩
    · obtain ⟨hm, hLm⟩ := h.pending j m ((limitWrite_perform hr j m).mp hj).2
      omega

/-- **The step lemma**: no action loses a unit. -/
theorem Lossless.step {u : UserID} {L : ℕ} {s s' : Cloud} {a : Action} (h : Lossless u L s)
    (hstep : s.step a = some s') : Lossless u L s' := by
  cases a with
  | call id c =>
    obtain ⟨-, rfl⟩ := Cloud.step_call hstep
    refine h.update (fun n ↦ ?_) fun user ↦ ?_ <;> cases c <;> simp [Call.task]
  | fail id =>
    obtain rfl := Cloud.step_fail hstep
    exact h.update (by simp) (by simp)
  | deliver id =>
    obtain ⟨t, hid, rfl⟩ := Cloud.step_deliver hstep
    exact h.perform hid

/-- **No unit is lost.**  Whatever is interleaved with what, and whatever fails: the quota that is
left and the calls granted so far make up the quota at the start. -/
theorem le_stored_add_granted {u : UserID} {L : ℕ} {s₀ s : Cloud} {as : List Action}
    (hs : s₀.Idle) (hL : StoredLimit u L s₀.database) (hrun : run Cloud.step s₀ as = some s) :
    ∃ n, 0 ≤ n ∧ StoredLimit u n s.database ∧ L ≤ n + granted u s :=
  (run_preserves (fun _ _ _ h hstep ↦ Lossless.step h hstep) (lossless_of_idle hs hL) hrun).stored

/-- Two calls overlap, and one of the two decrements fails. -/
theorem le_stored_add_granted_overlapping : ∃ s, run Cloud.step cloudWithOne
    [.call 0 (.photoLimit alice), .call 1 (.photoLimit alice), .deliver 0, .deliver 1, .deliver 1,
      .fail 0] = some s ∧
    ∃ n, 0 ≤ n ∧ StoredLimit alice n s.database ∧ (1 : ℕ) ≤ n + granted alice s := by
  obtain ⟨s, hs⟩ : ∃ s, run Cloud.step cloudWithOne [.call 0 (.photoLimit alice),
      .call 1 (.photoLimit alice), .deliver 0, .deliver 1, .deliver 1, .fail 0] = some s := ⟨_, rfl⟩
  exact ⟨s, hs, le_stored_add_granted (Cloud.idle_start _ _) (by decide) hs⟩

end LandCap
