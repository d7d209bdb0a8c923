import LandCap.CapDatabase.Basic

/-!
# The photo quota under concurrent `photoLimit` calls

A `photoLimit` call reads `users/u/photoLimit`, writes back the value less one, and hands the value
it read to its callback, which starts a landmark detection when it is positive.  The read and the
write are separate steps, so two calls can read the same value and one of the two decrements is
lost: `not_quota_safe` has a quota of one granted twice.

`granted_le` is what does hold.  As long as no call reads while another one's decrement is still on
its way, the calls granted so far and the quota that is left never exceed the quota at the start.
The invariant is `Serial`: at most one decrement is in flight, it carries the stored value less
one, and the quota it is about to take has been counted already.

`exists_overspend` says that the condition asks for no more than is needed.  Once a call has read
a positive value while a decrement was on its way, the run has a continuation that grants more
than the quota.
-/

set_option autoImplicit false

namespace LandCap

open PathTree Runs

/-- How many `photoLimit` calls for `u` have been granted: their callback received a positive
value. -/
def granted (u : UserID) (s : Cloud) : ℕ :=
  s.callbacks.countP fun
    | .limit v limitCount => v = u ∧ 0 < limitCount
    | _ => false

/-- Every read and every write is carried out: no call fails. -/
def NoFailure : Action → Prop
  | .call .. | .deliver _ => True
  | .fail _ => False

/-- No call for `u` reads its limit while the decrement of another one is in flight. -/
def NoOverlap (u : UserID) (s : Cloud) : Action → Prop
  | .deliver id =>
    s.inFlight id = some (.limitRead u) → ∀ j n, s.inFlight j ≠ some (.limitWrite u n)
  | _ => True

/-- `users/u/photoLimit` holds `n`. -/
def StoredLimit (u : UserID) (n : ℤ) (database : Database) : Prop :=
  snapshot (photoLimitRef u) database = [([], .int n)]

instance (u : UserID) (n : ℤ) (database : Database) : Decidable (StoredLimit u n database) :=
  inferInstanceAs (Decidable (_ = _))

/-! ## Reading and writing the limit -/

theorem hasChildren_of_stored {u : UserID} {n : ℤ} {database : Database}
    (h : StoredLimit u n database) : HasChildren (snapshot (userRef u) database) := by
  rw [StoredLimit, photoLimitRef_eq, ← snapshot_snapshot] at h
  exact hasChildren_of_snapshot_ne_nil (k := "photoLimit") (by simp [h])

theorem readPhotoLimit_of_stored {u : UserID} {n : ℤ} {database : Database}
    (h : StoredLimit u n database) :
    readPhotoLimit (snapshot (userRef u) database) = .count n := by
  rw [StoredLimit, photoLimitRef_eq, ← snapshot_snapshot] at h
  exact readPhotoLimit_eq_count.mpr ⟨.int n, h, rfl⟩

theorem storedLimit_limitWrite (u : UserID) (n : ℤ) (database : Database) :
    StoredLimit u n ((Task.limitWrite u n).write database) :=
  snapshot_setValue_self _ _ _

/-- A step that neither sets up `u` nor decrements its limit leaves the limit alone. -/
theorem snapshot_photoLimit_write {u : UserID} {t : Task} (database : Database)
    (hs : ∀ user, t = .setupWrite user → user.Key ≠ u) (hw : ∀ m, t ≠ .limitWrite u m) :
    snapshot (photoLimitRef u) (t.write database) = snapshot (photoLimitRef u) database := by
  rw [photoLimitRef_eq]
  by_cases hu : t.user = u
  · rw [Task.snapshot_write_of_key_ne]
    · rintro user rfl
      exact hs user rfl hu
    · intro hk
      cases t <;> simp only [Task.writtenKey, reduceCtorEq, Option.some.injEq] at hk
      case limitWrite v m => exact hw m (by rw [← hu, Task.user])
      all_goals exact absurd hk (by decide)
  · rw [← snapshot_snapshot, Task.snapshot_write_of_user_ne hu, snapshot_snapshot]

theorem storedLimit_write {u : UserID} {n : ℤ} {t : Task} {database : Database}
    (hs : ∀ user, t = .setupWrite user → user.Key ≠ u) (hw : ∀ m, t ≠ .limitWrite u m)
    (h : StoredLimit u n database) : StoredLimit u n (t.write database) :=
  (snapshot_photoLimit_write database hs hw).trans h

theorem followUp_limitRead {u : UserID} {n : ℤ} {s : Cloud} (h : StoredLimit u n s.database) :
    s.followUp (.limitRead u) = if 0 < n then some (.limitWrite u (n - 1)) else none := by
  rw [Cloud.followUp, readPhotoLimit_of_stored h]

theorem callback_limitRead {u : UserID} {n : ℤ} {s : Cloud} (h : StoredLimit u n s.database) :
    s.callback (.limitRead u) = [.limit u n] := by
  rw [Cloud.callback, readPhotoLimit_of_stored h]

/-- Only a read of the limit of `u` is followed by a decrement of it. -/
theorem eq_limitRead_of_followUp {u : UserID} {m : ℤ} {s : Cloud} {t : Task}
    (h : s.followUp t = some (.limitWrite u m)) : t = .limitRead u := by
  cases Cloud.followUp_cases h with
  | limitWrite => rfl

/-- A step grants a call of `u` only when it reads a positive limit of `u`. -/
theorem granted_perform {u : UserID} {s : Cloud} {t : Task} (id : ℕ) (h : t ≠ .limitRead u) :
    granted u (s.perform id t) = granted u s := by
  rw [granted, granted, Cloud.perform_callbacks, List.countP_append]
  suffices hz : (s.callback t).countP _ = 0 by rw [hz, Nat.zero_add]
  rw [List.countP_eq_zero]
  intro c hc
  cases t <;> simp only [Cloud.callback, List.not_mem_nil] at hc
  case limitRead v =>
    have hv : v ≠ u := fun hv ↦ h (hv ▸ rfl)
    split at hc <;> simp_all
  case downloadURL v p success => cases success <;> simp_all
  case nameRead v => simp_all
  case images v queue =>
    cases queue with
    | nil => simp at hc
    | cons e queue =>
      obtain ⟨a, -, rfl⟩ := Option.map_eq_some_iff.mp (Option.mem_toList.mp hc)
      simp

theorem granted_limitRead {u : UserID} {n : ℤ} {s : Cloud} (id : ℕ)
    (h : StoredLimit u n s.database) :
    granted u (s.perform id (.limitRead u)) = granted u s + if 0 < n then 1 else 0 := by
  rw [granted, granted, Cloud.perform_callbacks, callback_limitRead h, List.countP_append,
    List.countP_cons, List.countP_nil, Nat.add_comm]
  simp

/-! ## The serial runs -/

/-- The quota at the start is `L`, no call is about to set `u` up again, and the decrements of `u`
come one at a time. -/
structure Serial (u : UserID) (L : ℤ) (s : Cloud) : Prop where
  noSetup : ∀ j user, s.inFlight j = some (.setupWrite user) → user.Key ≠ u
  balance : ∃ n, 0 ≤ n ∧ StoredLimit u n s.database ∧
    ((∀ j m, s.inFlight j ≠ some (.limitWrite u m)) ∧ granted u s + n = L ∨
      0 < n ∧ granted u s + (n - 1) = L ∧
        ∃ id, ∀ j m, s.inFlight j = some (.limitWrite u m) ↔ j = id ∧ m = n - 1)

theorem serial_of_idle {u : UserID} {L : ℕ} {s : Cloud} (hs : s.Idle)
    (h : StoredLimit u L s.database) : Serial u L s where
  noSetup j user := by simp [hs.inFlight]
  balance := ⟨L, by omega, h, Or.inl ⟨fun j m ↦ by simp [hs.inFlight], by
    rw [granted, hs.callbacks, List.countP_nil]; omega⟩⟩

/-- While the limit is stored, no call finds `u` without a dictionary. -/
theorem Serial.noSetup_perform {u : UserID} {L : ℤ} {s : Cloud} (h : Serial u L s) {id : ℕ}
    {t : Task} (j : ℕ) (user : CapUser)
    (hj : (s.perform id t).inFlight j = some (.setupWrite user)) : user.Key ≠ u := by
  rcases Cloud.perform_inFlight hj (by simp) with ⟨-, hf⟩ | ⟨-, hf⟩
  · rintro rfl
    obtain ⟨n, -, hstored, -⟩ := h.balance
    exact (Cloud.followUp_eq_setupWrite hf).2 (hasChildren_of_stored hstored)
  · exact h.noSetup j user hf

/-- The decrements in flight after a step that is not a read of the limit are those of before. -/
theorem limitWrite_perform {u : UserID} {s : Cloud} {id : ℕ} {t : Task} (h : t ≠ .limitRead u)
    (j : ℕ) (m : ℤ) : (s.perform id t).inFlight j = some (.limitWrite u m) ↔
      j ≠ id ∧ s.inFlight j = some (.limitWrite u m) := by
  refine ⟨fun hj ↦ ?_, fun ⟨hj, hm⟩ ↦ ?_⟩
  · rcases Cloud.perform_inFlight hj (by simp) with ⟨-, hf⟩ | hf
    · exact absurd (eq_limitRead_of_followUp hf) h
    · exact hf
  · rw [s.perform_inFlight_of_ne t hj, hm]
    rfl

theorem serial_call {u : UserID} {L : ℤ} {s : Cloud} {id : ℕ} {c : Call} (h : Serial u L s)
    (hid : s.inFlight id = none) :
    Serial u L { s with inFlight := Function.update s.inFlight id c.task } where
  noSetup j user hj := by
    rcases update_eq_some hj with ⟨-, hnew⟩ | ⟨-, hj⟩
    · cases c <;> simp [Call.task] at hnew
    · exact h.noSetup j user hj
  balance := by
    have hsame : ∀ j m, Function.update s.inFlight id c.task j = some (.limitWrite u m) ↔
        s.inFlight j = some (.limitWrite u m) := by
      intro j m
      rcases eq_or_ne j id with rfl | hne
      · rw [Function.update_self, hid]
        cases c <;> simp [Call.task]
      · rw [Function.update_of_ne hne]
    obtain ⟨n, hn, hstored, hb⟩ := h.balance
    refine ⟨n, hn, hstored, hb.imp (fun hb ↦ ⟨fun j m hj ↦ ?_, hb.2⟩) fun hb ↦ ?_⟩
    · exact hb.1 j m ((hsame j m).mp hj)
    · obtain ⟨hpos, hL, i, hi⟩ := hb
      exact ⟨hpos, hL, i, fun j m ↦ (hsame j m).trans (hi j m)⟩

theorem serial_limitRead {u : UserID} {L : ℤ} {s : Cloud} {id : ℕ} (h : Serial u L s)
    (hid : s.inFlight id = some (.limitRead u))
    (hfree : ∀ j m, s.inFlight j ≠ some (.limitWrite u m)) :
    Serial u L (s.perform id (.limitRead u)) where
  noSetup := h.noSetup_perform
  balance := by
    obtain ⟨n, hn, hstored, ⟨-, hL⟩ | ⟨-, -, i, hi⟩⟩ := h.balance
    · refine ⟨n, hn, hstored, ?_⟩
      rw [granted_limitRead id hstored]
      have hnext := (s.perform_inFlight_self id (.limitRead u)).trans (followUp_limitRead hstored)
      rcases lt_or_eq_of_le hn with hpos | rfl
      · -- a positive limit was read: its decrement is now the only one in flight
        rw [if_pos hpos] at hnext ⊢
        refine Or.inr ⟨hpos, by omega, id, fun j m ↦ ⟨fun hj ↦ ?_, fun ⟨hj, hm⟩ ↦ ?_⟩⟩
        · rcases Cloud.perform_inFlight hj (by simp) with ⟨rfl, -⟩ | ⟨-, hf⟩
          · rw [hnext] at hj
            simp only [Option.some.injEq, Task.limitWrite.injEq, true_and] at hj
            exact ⟨rfl, hj.symm⟩
          · exact absurd hf (hfree j m)
        · rw [hj, hm, hnext]
      · rw [if_neg (lt_irrefl 0)] at hnext ⊢
        refine Or.inl ⟨fun j m hj ↦ ?_, by omega⟩
        rcases Cloud.perform_inFlight hj (by simp) with ⟨rfl, -⟩ | ⟨-, hf⟩
        · rw [hnext] at hj; exact absurd hj (by simp)
        · exact hfree j m hf
    · exact absurd ((hi i (n - 1)).mpr ⟨rfl, rfl⟩) (hfree i (n - 1))

theorem serial_limitWrite {u : UserID} {L m : ℤ} {s : Cloud} {id : ℕ} (h : Serial u L s)
    (hid : s.inFlight id = some (.limitWrite u m)) :
    Serial u L (s.perform id (.limitWrite u m)) where
  noSetup := h.noSetup_perform
  balance := by
    obtain ⟨n, hn, -, ⟨hfree, -⟩ | ⟨hpos, hL, i, hi⟩⟩ := h.balance
    · exact absurd hid (hfree id m)
    · obtain ⟨rfl, rfl⟩ := (hi id m).mp hid
      refine ⟨n - 1, by omega, storedLimit_limitWrite u (n - 1) s.database, Or.inl ⟨?_, ?_⟩⟩
      · intro j k hj
        obtain ⟨hne, hj⟩ := (limitWrite_perform (by simp) j k).mp hj
        exact hne ((hi j k).mp hj).1
      · rw [granted_perform id (by simp)]
        exact hL

theorem serial_other {u : UserID} {L : ℤ} {s : Cloud} {id : ℕ} {t : Task} (h : Serial u L s)
    (hid : s.inFlight id = some t) (hr : t ≠ .limitRead u) (hw : ∀ m, t ≠ .limitWrite u m) :
    Serial u L (s.perform id t) where
  noSetup := h.noSetup_perform
  balance := by
    have hsame : ∀ j m, (s.perform id t).inFlight j = some (.limitWrite u m) ↔
        s.inFlight j = some (.limitWrite u m) := fun j m ↦
      (limitWrite_perform hr j m).trans ⟨And.right, fun hj ↦ ⟨fun he ↦ hw m (by
        rw [he, hid] at hj; exact Option.some.inj hj), hj⟩⟩
    obtain ⟨n, hn, hstored, hb⟩ := h.balance
    have hkeep : StoredLimit u n (t.write s.database) :=
      storedLimit_write (fun user ht ↦ h.noSetup id user (ht ▸ hid)) hw hstored
    refine ⟨n, hn, hkeep, ?_⟩
    rw [granted_perform id hr]
    refine hb.imp (fun hb ↦ ⟨fun j m hj ↦ hb.1 j m ((hsame j m).mp hj), hb.2⟩) fun hb ↦ ?_
    obtain ⟨hpos, hL, i, hi⟩ := hb
    exact ⟨hpos, hL, i, fun j m ↦ (hsame j m).trans (hi j m)⟩

/-- **The step lemma**: a serial step keeps the account of the quota balanced. -/
theorem serial_step {u : UserID} {L : ℤ} {s s' : Cloud} {a : Action} (h : Serial u L s)
    (ha : NoFailure a ∧ NoOverlap u s a) (hstep : s.step a = some s') : Serial u L s' := by
  cases a with
  | call id c =>
    obtain ⟨hid, rfl⟩ := Cloud.step_call hstep
    exact serial_call h hid
  | fail id => exact ha.1.elim
  | deliver id =>
    obtain ⟨t, hid, rfl⟩ := Cloud.step_deliver hstep
    by_cases hr : t = .limitRead u
    · subst hr
      exact serial_limitRead h hid (ha.2 hid)
    · by_cases hw : ∃ m, t = .limitWrite u m
      · obtain ⟨m, rfl⟩ := hw
        exact serial_limitWrite h hid
      · exact serial_other h hid hr fun m hm ↦ hw ⟨m, hm⟩

theorem Serial.granted_le_limit {u : UserID} {L : ℤ} {s : Cloud} (h : Serial u L s) :
    (granted u s : ℤ) ≤ L := by
  obtain ⟨n, hn, -, ⟨-, hL⟩ | ⟨hpos, hL, -⟩⟩ := h.balance <;> omega

/-- **Quota safety of serial runs.**  Starting from a quota of `L`, at most `L` calls are granted
in a run in which no call reads the limit while a decrement of it is in flight. -/
theorem granted_le {u : UserID} {L : ℕ} {s₀ s : Cloud} {as : List Action} (hs : s₀.Idle)
    (hL : StoredLimit u L s₀.database) (hrun : run Cloud.step s₀ as = some s)
    (hcalls : ∀ a ∈ as, NoFailure a) (hserial : Meets Cloud.step (NoOverlap u) s₀ as) :
    granted u s ≤ L := by
  have hmeets : Meets Cloud.step (fun s a ↦ NoFailure a ∧ NoOverlap u s a) s₀ as :=
    hserial.and_mem hcalls
  have h := run_invariant (fun _ _ _ ↦ serial_step) (serial_of_idle hs hL) hmeets hrun
  exact_mod_cast h.granted_le_limit

/-! ## The condition is sharp -/

/-- One whole call, with nothing in between, takes one off a positive limit. -/
theorem run_photoLimit {u : UserID} {k : ℕ} {s : Cloud} {id : ℕ} (hid : s.inFlight id = none)
    (hk : StoredLimit u (k + 1) s.database) :
    ∃ t, run Cloud.step s [.call id (.photoLimit u), .deliver id, .deliver id] = some t ∧
      t.inFlight id = none ∧ StoredLimit u k t.database ∧ granted u t = granted u s + 1 := by
  obtain ⟨s₁, hs₁⟩ : ∃ s₁, s₁ =
      { s with inFlight := Function.update s.inFlight id (Call.photoLimit u).task } := ⟨_, rfl⟩
  have h₁ : s.step (.call id (.photoLimit u)) = some s₁ := by rw [Cloud.step, if_pos hid, hs₁]
  have hread : s₁.inFlight id = some (.limitRead u) := by
    rw [hs₁]; simp [Call.task]
  have hk₁ : StoredLimit u (k + 1) s₁.database := hs₁ ▸ hk
  have hg₁ : granted u s₁ = granted u s := hs₁ ▸ rfl
  have hwrite : (s₁.perform id (.limitRead u)).inFlight id = some (.limitWrite u k) := by
    rw [s₁.perform_inFlight_self, followUp_limitRead hk₁, if_pos (by omega), add_sub_cancel_right]
  refine ⟨(s₁.perform id (.limitRead u)).perform id (.limitWrite u k), ?_, ?_, ?_, ?_⟩
  · simp [run_cons_eq_some, h₁, Cloud.step_deliver_of hread, Cloud.step_deliver_of hwrite]
  · rw [Cloud.perform_inFlight_self]; rfl
  · exact storedLimit_limitWrite u k _
  · rw [granted_perform id (by simp), granted_limitRead id hk₁, if_pos (by omega), hg₁]

/-- Calls made one after another use the limit up. -/
theorem exists_drain {u : UserID} {id : ℕ} : ∀ {k : ℕ} {s : Cloud}, s.inFlight id = none →
    StoredLimit u k s.database → ∃ bs t, run Cloud.step s bs = some t ∧
      (∀ b ∈ bs, NoFailure b) ∧ granted u t = granted u s + k
  | 0, s, _, _ => ⟨[], s, rfl, by simp, rfl⟩
  | k + 1, s, hid, hk => by
    obtain ⟨t, ht, hid', hk', hg⟩ := run_photoLimit hid (by exact_mod_cast hk)
    obtain ⟨bs, t', ht', hbs, hg'⟩ := exists_drain hid' hk'
    refine ⟨_ ++ bs, t', by rw [run_append, ht]; exact ht', ?_, by omega⟩
    intro b hb
    rcases List.mem_append.mp hb with hb | hb
    · simp only [List.mem_cons, List.not_mem_nil, or_false] at hb
      rcases hb with rfl | rfl | rfl <;> trivial
    · exact hbs b hb

/-- **A read that overlaps a decrement overspends.**  After a serial run, a step that lets a call
read the limit while a decrement is in flight can be continued to more grants than the quota. -/
theorem exists_overspend {u : UserID} {L : ℕ} {s s' : Cloud} {a : Action} (h : Serial u L s)
    (ha : ¬NoOverlap u s a) (hstep : s.step a = some s') :
    ∃ bs t, run Cloud.step s' bs = some t ∧ (∀ b ∈ bs, NoFailure b) ∧ L < granted u t := by
  cases a with
  | call | fail => exact absurd trivial ha
  | deliver id =>
    rw [NoOverlap] at ha
    push Not at ha
    obtain ⟨hid, j, m, hj⟩ := ha
    obtain ⟨t, ht, rfl⟩ := Cloud.step_deliver hstep
    obtain rfl : t = .limitRead u := Option.some.inj (ht.symm.trans hid)
    obtain ⟨n, hn, hstored, ⟨hfree, -⟩ | ⟨hpos, hL, i, hi⟩⟩ := h.balance
    · exact absurd hj (hfree j m)
    obtain ⟨rfl, rfl⟩ := (hi j m).mp hj
    have hne : j ≠ id := fun he ↦ by rw [he, hid] at hj; exact absurd hj (by simp)
    -- both decrements carry `n - 1`; once they have landed, `n - 1` is left of the limit
    have h₁ : (s.perform id (.limitRead u)).inFlight j = some (.limitWrite u (n - 1)) := by
      rw [s.perform_inFlight_of_ne _ hne, hj]; rfl
    have h₂ : ((s.perform id (.limitRead u)).perform j (.limitWrite u (n - 1))).inFlight id
        = some (.limitWrite u (n - 1)) := by
      rw [Cloud.perform_inFlight_of_ne _ _ hne.symm, s.perform_inFlight_self,
        followUp_limitRead hstored, if_pos hpos]
      rfl
    have h₃ : (((s.perform id (.limitRead u)).perform j (.limitWrite u (n - 1))).perform id
        (.limitWrite u (n - 1))).inFlight id = none := by
      rw [Cloud.perform_inFlight_self]; rfl
    obtain ⟨bs, t, ht, hbs, hg⟩ := exists_drain h₃ (u := u) (k := (n - 1).toNat) (by
      rw [Int.toNat_of_nonneg (by omega)]; exact storedLimit_limitWrite u (n - 1) _)
    refine ⟨.deliver j :: .deliver id :: bs, t, ?_, ?_, ?_⟩
    · simp [run_cons_eq_some, Cloud.step_deliver_of h₁, Cloud.step_deliver_of h₂, ht]
    · intro b hb
      rcases List.mem_cons.mp hb with rfl | hb
      · trivial
      rcases List.mem_cons.mp hb with rfl | hb
      · trivial
      · exact hbs b hb
    · rw [granted_perform id (by simp), granted_perform j (by simp), granted_limitRead id hstored,
        if_pos hpos] at hg
      omega

/-! ## Two calls at once -/

/-- A call that is alone in flight overlaps with nothing. -/
theorem noOverlap_of_alone {u : UserID} {s : Cloud} {id : ℕ}
    (h : ∀ j, j ≠ id → s.inFlight j = none) : NoOverlap u s (.deliver id) := by
  intro hid j n hj
  rcases eq_or_ne j id with rfl | hne
  · rw [hid] at hj; exact absurd hj (by simp)
  · rw [h j hne] at hj; exact absurd hj (by simp)

/-- A server on which the quota of `alice` is one. -/
def cloudWithOne : Cloud := .start .plain
  [(["users", "alice", "isAnonymous"], .bool false), (["users", "alice", "photoLimit"], .int 1)]

/-- A call of `alice`, and another one when it is over. -/
def serialCalls : List Action :=
  [.call 0 (.photoLimit alice), .deliver 0, .deliver 0, .call 0 (.photoLimit alice), .deliver 0]

theorem granted_le_serialCalls :
    ∃ s, run Cloud.step cloudWithOne serialCalls = some s ∧ granted alice s ≤ 1 := by
  have hL : StoredLimit alice (1 : ℕ) cloudWithOne.database := by decide
  obtain ⟨s, hs⟩ : ∃ s, run Cloud.step cloudWithOne serialCalls = some s := ⟨_, rfl⟩
  refine ⟨s, hs, granted_le (Cloud.idle_start _ _) hL hs ?_ ?_⟩
  · simp [serialCalls, NoFailure]
  · rw [serialCalls, meets_cons rfl, meets_cons rfl, meets_cons rfl, meets_cons rfl, meets_cons rfl]
    refine ⟨trivial, noOverlap_of_alone ?_, noOverlap_of_alone ?_, trivial, noOverlap_of_alone ?_,
      trivial⟩ <;>
    · intro j hj
      simp [Cloud.perform_inFlight_of_ne _ _ hj, Function.update_of_ne hj, Cloud.start]

/-- **The quota can be overspent.**  Two calls read the quota of one before either of them has
written it back. -/
theorem not_quota_safe : ¬∀ (u : UserID) (L : ℕ) (s₀ s : Cloud) (as : List Action), s₀.Idle →
    StoredLimit u L s₀.database → run Cloud.step s₀ as = some s →
    (∀ a ∈ as, NoFailure a) → granted u s ≤ L := by
  intro h
  obtain ⟨s, hs, hg⟩ : ∃ s, run Cloud.step cloudWithOne
      [.call 0 (.photoLimit alice), .call 1 (.photoLimit alice), .deliver 0, .deliver 1] = some s ∧
        granted alice s = 2 := ⟨_, rfl, by decide⟩
  have hL : StoredLimit alice (1 : ℕ) cloudWithOne.database := by decide
  have hle := h alice 1 _ s _ (Cloud.idle_start _ _) hL hs (by simp [NoFailure])
  omega

end LandCap
