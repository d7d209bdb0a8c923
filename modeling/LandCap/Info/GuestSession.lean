import LandCap.Info.Basic

/-!
# A guest's session and the database of Process

`processHandler` opens the database for the guest id of a guest, and leaves it nil when there is
none, so `photoLimit` must not be called on it in that case.  That a session is a guest's is written
by the block of a skip, and the guest id by the completion handler of an anonymous sign-in, possibly
in another flow and much earlier.

The two are connected by what a block of a skip knows: it is only put on the main queue when there
is a guest id (`start_skip`, `next_complete`), and a guest id is never taken away
(`anonymousUserID_step`).  `Install.GuestsKnown` is the invariant that says so.
-/

set_option autoImplicit false

namespace LandCap

open Runs

/-- A guest has a guest id. -/
def Session.GuestHasID (session : Session) : Prop :=
  session.isAnonymous = true → session.anonymousUserID.isSome = true

/-- The database `processHandler` calls `photoLimit` on is there exactly if a guest has an id. -/
theorem processHandler_isSome_iff (session : Session) :
    (PhotoController.processHandler session).isSome = true ↔ session.GuestHasID := by
  rw [PhotoController.processHandler, Option.isSome_map, Session.activeID, Session.GuestHasID]
  cases session.isAnonymous with
  | false => simp
  | true => simp

/-- A guest has an id, and so has whoever the block of a skip will make a guest. -/
structure Install.GuestsKnown (s : Install) : Prop where
  session : s.session.GuestHasID
  block : ∀ id o, s.pending id = some (.block o) → o.flow = .skip →
    s.session.anonymousUserID.isSome = true

/-! ## Where the block of a skip comes from -/

/-- A tap leaves a block pending only for a guest who is known already. -/
theorem start_skip {session : Session} {t : Tap} {o : Opening}
    (h : t.start session = some (.block o)) : session.anonymousUserID.isSome = true := by
  cases t with
  | skipOkay =>
    rw [Tap.start] at h
    split at h
    · simp at h
    · rename_i hknown
      exact Option.isSome_iff_ne_none.mpr hknown
  | signInBtn email password => cases email <;> cases password <;> simp [Tap.start] at h
  | registerBtn name email password =>
    cases name <;> cases email <;> cases password <;> simp [Tap.start] at h
  | requestNewPassword email => cases email <;> simp [Tap.start] at h
  | loginButton token => cases token <;> simp [Tap.start] at h

/-! ## One step -/

section Step

variable {s s' : Install} {e : Event}

/-- **A guest id is never taken away.** -/
theorem anonymousUserID_step (hstep : s.step e = some s')
    (h : s.session.anonymousUserID.isSome = true) :
    s'.session.anonymousUserID.isSome = true := by
  rcases Install.step_cases hstep with ⟨id, call, r, authResult, error, -, -, ha⟩ |
    ⟨id, call, o, -, -, rfl⟩ | ⟨-, rfl⟩ | ⟨a, -, -, hs, -⟩ | ⟨-, hs, -, -⟩
  · rw [(Install.apply_eq_some ha).1, complete_session, Option.isSome_or, h, Bool.or_true]
  · exact h
  · exact h
  · rw [hs]; exact h
  · rw [hs]; exact h

/-- A block of a skip that is pending after a step finds a guest id there. -/
theorem block_step (h : s.GuestsKnown) (hstep : s.step e = some s') {id : ℕ} {o : Opening}
    (hp : s'.pending id = some (.block o)) (ho : o.flow = .skip) :
    s'.session.anonymousUserID.isSome = true := by
  rcases Install.pending_step hstep hp with hold | ⟨t, -, -, hstart⟩ |
    ⟨_, _, _, -, -, hcompletion⟩ | ⟨call, r, authResult, error, rfl, hr, hnext⟩
  · exact anonymousUserID_step hstep (h.block id o hold ho)
  · exact anonymousUserID_step hstep (start_skip hstart)
  · exact absurd hcompletion (by simp)
  · rcases next_complete hnext with ⟨o', ho', hstored⟩ | ⟨registered, hrequest⟩
    · obtain rfl : o = o' := Pending.block.inj ho'
      rw [(Install.apply_eq_some (Install.step_handle hstep hr)).1, complete_session,
        Option.isSome_or, hstored ho, Bool.true_or]
    · exact absurd hrequest (by simp)

/-- **A step keeps the guests known.** -/
theorem guestsKnown_step (h : s.GuestsKnown) (hstep : s.step e = some s') : s'.GuestsKnown := by
  refine ⟨fun hguest ↦ ?_, fun id o hp ho ↦ block_step h hstep hp ho⟩
  rcases Install.step_cases hstep with ⟨id, call, r, authResult, error, -, -, ha⟩ |
    ⟨id, call, o, -, hp, rfl⟩ | ⟨-, rfl⟩ | ⟨a, -, -, hs, -⟩ | ⟨-, hs, -, -⟩
  · rw [(Install.apply_eq_some ha).1, complete_session] at hguest
    exact anonymousUserID_step hstep (h.session (Bool.and_eq_true_iff.mp hguest).1)
  · by_cases ho : o.flow = .skip
    · exact h.block id o hp ho
    · exact h.session (by simpa [Install.enter, Opening.enter, ho] using hguest)
  · exact h.session hguest
  · rw [hs] at hguest ⊢; exact h.session hguest
  · rw [hs] at hguest ⊢; exact h.session hguest

end Step

/-- **A guest's session carries a guest id**, in every state of every run of a fresh install,
whoever Firebase Auth considers current at its start; so `processHandler` never calls `photoLimit`
on a database that is nil. -/
theorem guest_session (cloud : Cloud) (auth : Option AuthUser) (events : List Event) :
    Throughout Install.step
      (fun s ↦ s.session.GuestHasID ∧ (PhotoController.processHandler s.session).isSome = true)
      { Install.fresh cloud with auth := auth } events := by
  have hfresh : Install.GuestsKnown { Install.fresh cloud with auth := auth } :=
    ⟨fun hguest ↦ (nomatch hguest), fun _ _ hp ↦ (nomatch hp)⟩
  intro bs _ t hrun
  have ht : t.GuestsKnown :=
    run_preserves (fun _ _ _ h hstep ↦ guestsKnown_step h hstep) hfresh hrun
  exact ⟨ht.session, (processHandler_isSome_iff _).mpr ht.session⟩

end LandCap
