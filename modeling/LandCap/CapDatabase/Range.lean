import LandCap.CapDatabase.Quota

/-!
# The range of the quota

The decrements of overlapping `photoLimit` calls can be lost, and a slow `setupUser` call can refill
the quota, so little can be said about how the stored number develops.  What does hold is a bound:
on a user who is set up as one kind of account only, every number that is stored or on its way to be
stored lies between zero and the limit of that kind (`limits_in_range`), under every schedule.

The bound is no invariant by itself.  `Bounded` adds the limits that pending `setupUser` reads carry
with them, since they become writes.
-/

set_option autoImplicit false

namespace LandCap

open PathTree Runs

/-! ## Kinds of account -/

/-- The two ways in which a `CapUser` is set. -/
inductive AccountKind where
  | authorized | anonymous
  deriving DecidableEq

/-- The limit `setAuthorizedUser` and `setAnonymousUser` start with. -/
def AccountKind.photoLimit : AccountKind → ℤ
  | .authorized => 100
  | .anonymous => 10

/-- The user has been set as an account of this kind. -/
def CapUser.IsKind (user : CapUser) : AccountKind → Prop
  | .authorized => user = .setAuthorizedUser user.Key user.Name
  | .anonymous => user = .setAnonymousUser user.Key

/-- If the action sets up `u`, then as an account of this kind. -/
def SetsUp (u : UserID) (kind : AccountKind) : Action → Prop
  | .call _ (.setupUser user) => user.Key = u → user.IsKind kind
  | _ => True

theorem CapUser.IsKind.photoLimit_eq {user : CapUser} {kind : AccountKind} (h : user.IsKind kind) :
    user.photoLimit = kind.photoLimit := by
  cases kind <;> exact congrArg CapUser.photoLimit h

theorem AccountKind.photoLimit_pos (kind : AccountKind) : 0 < kind.photoLimit := by
  cases kind <;> decide

/-! ## The range -/

/-- Between zero and the limit of the kind. -/
def AccountKind.Allows (kind : AccountKind) (n : ℤ) : Prop := 0 ≤ n ∧ n ≤ kind.photoLimit

/-- What is stored at `users/u/photoLimit`, and what pending writes are about to store there, is in
the range of the kind. -/
structure InRange (u : UserID) (kind : AccountKind) (s : Cloud) : Prop where
  stored : ∀ e ∈ snapshot (photoLimitRef u) s.database, ∃ n, e = ([], .int n) ∧ kind.Allows n
  setupWrite : ∀ j user, s.inFlight j = some (.setupWrite user) → user.Key = u →
    kind.Allows user.photoLimit
  limitWrite : ∀ j n, s.inFlight j = some (.limitWrite u n) → kind.Allows n

/-- Where the stored limit is zero, a call is over with its read: it writes nothing, and hands the
zero to its callback. -/
def StopsAtZero (u : UserID) (s : Cloud) : Prop :=
  ∀ j l, s.inFlight j = some (.limitRead u) →
    snapshot (photoLimitRef u) s.database = [([], l)] → l.asInt = some 0 →
    ∃ s', s.step (.deliver j) = some s' ∧ s'.inFlight j = none ∧ s'.database = s.database ∧
      s'.callbacks = .limit u 0 :: s.callbacks

theorem stopsAtZero (u : UserID) (s : Cloud) : StopsAtZero u s := by
  intro j l hj hstored hl
  have hzero : readPhotoLimit (snapshot (userRef u) s.database) = .count 0 := by
    refine readPhotoLimit_eq_count.mpr ⟨l, ?_, hl⟩
    rw [snapshot_snapshot, ← photoLimitRef_eq]
    exact hstored
  refine ⟨_, Cloud.step_deliver_of hj, ?_, rfl, ?_⟩
  · rw [s.perform_inFlight_self, Cloud.followUp, hzero]
    rfl
  · rw [Cloud.perform_callbacks, Cloud.callback, hzero]
    rfl

/-- The invariant: the pending reads of `setupUser` carry the limit of the kind. -/
structure Bounded (u : UserID) (kind : AccountKind) (s : Cloud) : Prop
    extends InRange u kind s where
  setupRead : ∀ j user, s.inFlight j = some (.setupRead user) → user.Key = u →
    kind.Allows user.photoLimit

section Step

variable {u : UserID} {kind : AccountKind} {s s' : Cloud}

theorem bounded_of_idle (hs : s.Idle) (habsent : snapshot (userRef u) s.database = []) :
    Bounded u kind s where
  stored e he := by
    rw [photoLimitRef_eq, ← snapshot_snapshot, habsent] at he
    exact absurd he List.not_mem_nil
  setupWrite j user hj := by simp [hs.inFlight] at hj
  limitWrite j n hj := by simp [hs.inFlight] at hj
  setupRead j user hj := by simp [hs.inFlight] at hj

/-- A number that is read is one that is stored. -/
theorem InRange.allows_of_read (h : InRange u kind s) {n : ℤ}
    (hn : readPhotoLimit (snapshot (userRef u) s.database) = .count n) : kind.Allows n := by
  obtain ⟨l, hl, hint⟩ := readPhotoLimit_eq_count.mp hn
  rw [snapshot_snapshot, ← photoLimitRef_eq] at hl
  obtain ⟨m, he, hm⟩ := h.stored ([], l) (hl ▸ List.mem_cons_self)
  obtain rfl : l = .int m := congrArg Prod.snd he
  obtain rfl : m = n := Option.some.inj hint
  exact hm

/-- A decrement carries a number that has been read, less one. -/
theorem followUp_eq_limitWrite {t : Task} {n : ℤ} (h : s.followUp t = some (.limitWrite u n)) :
    0 < n + 1 ∧ readPhotoLimit (snapshot (userRef u) s.database) = .count (n + 1) := by
  cases Cloud.followUp_cases h with
  | limitWrite _ limitCount hread hpos =>
    rw [sub_add_cancel]
    exact ⟨hpos, hread⟩

/-- No step is followed by the first read of `setupUser`. -/
theorem Cloud.followUp_ne_setupRead (s : Cloud) (t : Task) (user : CapUser) :
    s.followUp t ≠ some (.setupRead user) := by
  intro h
  cases Cloud.followUp_cases h

/-- What is stored after a step is what was stored, or what the step was to write. -/
theorem Bounded.stored_write (h : Bounded u kind s) {id : ℕ} {t : Task}
    (hid : s.inFlight id = some t) :
    ∀ e ∈ snapshot (photoLimitRef u) (t.write s.database), ∃ n, e = ([], .int n) ∧
      kind.Allows n := by
  by_cases hw : ∃ m, t = .limitWrite u m
  · obtain ⟨m, rfl⟩ := hw
    rw [storedLimit_limitWrite u m s.database]
    simpa using h.limitWrite id m hid
  by_cases hs : ∃ user, t = .setupWrite user ∧ user.Key = u
  · obtain ⟨user, rfl, rfl⟩ := hs
    rw [photoLimitRef_eq, ← snapshot_snapshot, snapshot_setupWrite, snapshot_dictionary_photoLimit]
    simpa using h.setupWrite id user hid rfl
  rw [snapshot_photoLimit_write s.database (fun user ht hu ↦ hs ⟨user, ht, hu⟩)
    fun m hm ↦ hw ⟨m, hm⟩]
  exact h.stored

theorem bounded_deliver (h : Bounded u kind s) {id : ℕ} {t : Task}
    (hid : s.inFlight id = some t) : Bounded u kind (s.perform id t) where
  stored := h.stored_write hid
  setupWrite j user hj hu := by
    rcases Cloud.perform_inFlight hj (by simp) with ⟨-, hf⟩ | ⟨-, hj⟩
    · obtain ⟨rfl, -⟩ := Cloud.followUp_eq_setupWrite hf
      exact h.setupRead id user hid hu
    · exact h.setupWrite j user hj hu
  limitWrite j n hj := by
    rcases Cloud.perform_inFlight hj (by simp) with ⟨-, hf⟩ | ⟨-, hj⟩
    · obtain ⟨hpos, hread⟩ := followUp_eq_limitWrite hf
      obtain ⟨-, hle⟩ := h.allows_of_read hread
      exact ⟨by omega, by omega⟩
    · exact h.limitWrite j n hj
  setupRead j user hj hu := by
    rcases Cloud.perform_inFlight hj (by simp) with ⟨-, hf⟩ | ⟨-, hj⟩
    · exact absurd hf (s.followUp_ne_setupRead t user)
    · exact h.setupRead j user hj hu

/-- Putting another first step, or none, in flight. -/
theorem bounded_update (h : Bounded u kind s) (id : ℕ) {t : Option Task}
    (hw : ∀ t', t = some t' → (∀ user, t' ≠ .setupWrite user) ∧ (∀ n, t' ≠ .limitWrite u n) ∧
      ∀ user, t' = .setupRead user → user.Key = u → kind.Allows user.photoLimit) :
    Bounded u kind { s with inFlight := Function.update s.inFlight id t } where
  stored := h.stored
  setupWrite j user hj hu := by
    rcases update_eq_some hj with ⟨-, ht⟩ | ⟨-, hj⟩
    · exact absurd rfl ((hw _ ht).1 user)
    · exact h.setupWrite j user hj hu
  limitWrite j n hj := by
    rcases update_eq_some hj with ⟨-, ht⟩ | ⟨-, hj⟩
    · exact absurd rfl ((hw _ ht).2.1 n)
    · exact h.limitWrite j n hj
  setupRead j user hj hu := by
    rcases update_eq_some hj with ⟨-, ht⟩ | ⟨-, hj⟩
    · exact (hw _ ht).2.2 user rfl hu
    · exact h.setupRead j user hj hu

/-- **The step lemma**: whatever step is taken, the numbers stay in range. -/
theorem bounded_step {a : Action} (h : Bounded u kind s) (ha : SetsUp u kind a)
    (hstep : s.step a = some s') : Bounded u kind s' := by
  cases a with
  | call id c =>
    obtain ⟨-, rfl⟩ := Cloud.step_call hstep
    refine bounded_update h id fun t ht ↦ ⟨?_, ?_, ?_⟩
    · rintro user rfl
      cases c <;> simp [Call.task] at ht
    · rintro n rfl
      cases c <;> simp [Call.task] at ht
    · rintro user rfl hu
      cases c <;> simp [Call.task] at ht
      case setupUser user' =>
        subst ht
        rw [(ha hu).photoLimit_eq]
        exact ⟨kind.photoLimit_pos.le, le_refl _⟩
  | fail id =>
    obtain rfl := Cloud.step_fail hstep
    exact bounded_update h id (by simp)
  | deliver id =>
    obtain ⟨t, hid, rfl⟩ := Cloud.step_deliver hstep
    exact bounded_deliver h hid

end Step

/-- **The quota never leaves its range.**  However many clients set up `u` as one kind of account
and call `photoLimit` for it, in every state of every run all stored and pending limits are between
zero and the limit of the kind, and a call that reads zero stops there. -/
theorem limits_in_range {u : UserID} {kind : AccountKind} {s₀ : Cloud} {as : List Action}
    (hs : s₀.Idle) (habsent : snapshot (userRef u) s₀.database = [])
    (has : ∀ a ∈ as, SetsUp u kind a) :
    Throughout Cloud.step (fun s ↦ InRange u kind s ∧ StopsAtZero u s) s₀ as := by
  intro bs hbs t ht
  have hbounded : Bounded u kind t := throughout_of_meets (P := fun _ a ↦ SetsUp u kind a)
    (fun _ _ _ h ha hstep ↦ bounded_step h ha hstep) (bounded_of_idle hs habsent)
    (Meets.of_mem has) bs hbs t ht
  exact ⟨hbounded.toInRange, stopsAtZero u t⟩

/-- Two devices set `guest` up at once, and two photos are processed in the meantime.  The quota is
used up then, and one more photo is to be processed. -/
def refilledSetup : List Action :=
  [.call 0 (.setupUser (.setAnonymousUser guest)),
    .call 1 (.setupUser (.setAnonymousUser guest)), .deliver 0, .deliver 1, .deliver 1,
    .call 2 (.photoLimit guest), .call 3 (.photoLimit guest), .deliver 2, .deliver 3, .deliver 3,
    .deliver 0, .deliver 2] ++
  (List.replicate 9 [.call 0 (.photoLimit guest), .deliver 0, .deliver 0]).flatten ++
  [.call 0 (.photoLimit guest)]

theorem limits_in_range_refilledSetup :
    (∃ t, run Cloud.step (.start .plain []) refilledSetup = some t ∧
      t.inFlight 0 = some (.limitRead guest) ∧
      snapshot (photoLimitRef guest) t.database = [([], .int 0)]) ∧
    Throughout Cloud.step (fun s ↦ InRange guest .anonymous s ∧ StopsAtZero guest s)
      (.start .plain []) refilledSetup :=
  ⟨⟨_, rfl, rfl, rfl⟩, limits_in_range (Cloud.idle_start _ _) rfl
    (by simp [refilledSetup, SetsUp, CapUser.IsKind, CapUser.setAnonymousUser])⟩

end LandCap
