import LandCap.Login.Basic

/-!
# A signed-in session and its quota record

`processHandler` asks `photoLimit` for the quota of the session's user.  `photoLimit` traps when
the user's dictionary has no number under `photoLimit`, and never calls back when there is no
dictionary; so a session that is signed in needs the record that `setupUser` writes.  No flow waits
for `setupUser`, and two of them (signing in, and skipping with a stored guest id) do not call it.

Once a record with a quota is there, every step of the cloud leaves one there (`usable_write`).
Everything is therefore decided at the moments at which a user becomes the session's user:
`hasQuota_iff` says that a session always has its record if and only if, whenever a block opens Home
or a handler changes the user of a session that is signed in, the record of the new user is there
already.  `hasQuota_of_patient` has a schedule under which it is.
-/

set_option autoImplicit false

namespace LandCap

open PathTree Runs

/-- `photoLimit` finds a quota for `u`. -/
def Usable (u : UserID) (database : Database) : Prop :=
  ∃ limitCount, readPhotoLimit (snapshot (userRef u) database) = .count limitCount

/-- While somebody is signed in, `photoLimit` finds a quota for the user `processHandler` asks it
for. -/
def Install.HasQuota (s : Install) : Prop :=
  s.session.isSignedIn = true → ∃ u, s.session.activeID = some u ∧ Usable u s.cloud.database

/-- The user for whom the block opens Home. -/
def Opening.opensFor (session : Session) (o : Opening) : Option UserID :=
  if o.flow = .skip then session.anonymousUserID else session.activeID

/-- The user a completion handler switches the session to. -/
def Request.switchesTo (session : Session) (authResult : Option AuthUser)
    (error : Option AuthError) (r : Request) : Option UserID :=
  if r.endsGuest authResult error then
    some ((r.storesID authResult error).getD session.currentUserID)
  else if session.isAnonymous then r.guestID authResult
  else none

/-- Whoever becomes the user of a signed-in session in this step has a quota already. -/
def Install.Provisioned (s : Install) : Event → Prop
  | .deliver id _ =>
    (∀ o, s.pending id = some (.block o) →
      ∃ u, o.opensFor s.session = some u ∧ Usable u s.cloud.database) ∧
    ∀ r authResult error, s.pending id = some (.completion r authResult error) →
      s.session.isSignedIn = true →
      ∀ u ∈ r.switchesTo s.session authResult error, Usable u s.cloud.database
  | _ => True

/-! ## A quota stays -/

theorem usable_setupWrite (user : CapUser) (database : Database) :
    Usable user.Key ((Task.setupWrite user).write database) := by
  refine ⟨user.photoLimit, readPhotoLimit_eq_count.mpr ⟨.int user.photoLimit, ?_, rfl⟩⟩
  rw [snapshot_setupWrite, snapshot_dictionary_photoLimit]

/-- **No step of the cloud takes a quota away.** -/
theorem usable_write {u : UserID} {database : Database} (h : Usable u database) (t : Task) :
    Usable u (t.write database) := by
  by_cases hu : t.user = u
  · by_cases hs : ∃ user, t = .setupWrite user
    · obtain ⟨user, rfl⟩ := hs
      obtain rfl : user.Key = u := hu
      exact usable_setupWrite user database
    by_cases hl : ∃ v n, t = .limitWrite v n
    · obtain ⟨v, n, rfl⟩ := hl
      obtain rfl : v = u := hu
      exact ⟨n, readPhotoLimit_eq_count.mpr ⟨.int n, snapshot_limitWrite v n _, rfl⟩⟩
    have hkey : t.writtenKey ≠ some "photoLimit" := by
      intro hk
      cases t <;> simp only [Task.writtenKey, reduceCtorEq, Option.some.injEq] at hk
      case limitWrite v n => exact hl ⟨v, n, rfl⟩
      all_goals exact absurd hk (by decide)
    obtain ⟨n, hn⟩ := h
    obtain ⟨l, hsnap, hl'⟩ := readPhotoLimit_eq_count.mp hn
    refine ⟨n, readPhotoLimit_eq_count.mpr ⟨l, ?_, hl'⟩⟩
    rw [snapshot_snapshot] at hsnap ⊢
    rw [Task.snapshot_write_of_key_ne (fun user ht ↦ hs ⟨user, ht⟩) hkey, hsnap]
  · rw [Usable, Task.snapshot_write_of_user_ne hu]
    exact h

theorem usable_step {u : UserID} {s s' : Cloud} {a : Action} (h : Usable u s.database)
    (hstep : s.step a = some s') : Usable u s'.database := by
  cases a with
  | call id c => obtain ⟨-, rfl⟩ := Cloud.step_call hstep; exact h
  | deliver id => obtain ⟨t, -, rfl⟩ := Cloud.step_deliver hstep; exact usable_write h t
  | fail id => obtain rfl := Cloud.step_fail hstep; exact h

/-! ## The user of the session -/

theorem activeID_enter (session : Session) (o : Opening) :
    (o.enter session).activeID = o.opensFor session := by
  rw [Opening.enter, Opening.opensFor, Session.activeID]
  split <;> rfl

/-- **A handler switches the session's user**, or leaves it. -/
theorem activeID_complete (session : Session) (auth : Option AuthUser) (r : Request)
    (authResult : Option AuthUser) (error : Option AuthError) :
    (complete session auth r authResult error).session.activeID =
      (r.switchesTo session authResult error).or session.activeID := by
  rw [complete_session, Request.switchesTo, Session.activeID]
  by_cases he : r.endsGuest authResult error = true
  · simp only [he, Bool.not_true, Bool.and_false, Bool.false_eq_true, if_false, if_true,
      Option.some_or, Session.currentUserID]
    cases r.storesID authResult error <;> rfl
  · have hs : r.storesID authResult error = none := by
      cases hs : r.storesID authResult error with
      | none => rfl
      | some u => exact absurd (Request.endsGuest_of_storesID hs) he
    cases hg : session.isAnonymous <;> simp [he, hs, hg, Session.activeID, Session.currentUserID]

/-- **The step lemma**: from a session with a quota, a step leads to one exactly if the user it
switches to has one. -/
theorem hasQuota_step {s s' : Install} {e : Event} (h : s.HasQuota) (hstep : s.step e = some s') :
    s'.HasQuota ↔ s.Provisioned e := by
  rcases Install.step_cases hstep with ⟨id, call, r, authResult, error, rfl, hp, ha⟩ |
    ⟨id, call, o, rfl, hp, rfl⟩ | ⟨rfl, rfl⟩ | ⟨a, rfl, hc, hs, -⟩ | ⟨hne, hs, -, hc⟩
  · obtain ⟨hs, -, hd, -⟩ := Install.apply_eq_some ha
    have hsigned : (complete s.session s.auth r authResult error).session.isSignedIn
        = s.session.isSignedIn := by rw [complete_session]
    rw [Install.HasQuota, hs, hd, hsigned, activeID_complete, Install.Provisioned]
    simp only [hp, Option.some.injEq, reduceCtorEq, false_implies, implies_true, true_and,
      Pending.completion.injEq, and_imp]
    refine ⟨fun hm r' authResult' error' hr ha' he hsig u hu ↦ ?_, fun hm hsig ↦ ?_⟩
    · subst hr ha' he
      obtain ⟨v, hv, husable⟩ := hm hsig
      rw [Option.mem_def.mp hu, Option.some_or] at hv
      exact Option.some.inj hv ▸ husable
    · cases hw : r.switchesTo s.session authResult error with
      | none => exact h hsig
      | some u => exact ⟨u, rfl, hm r authResult error rfl rfl rfl hsig u hw⟩
  · rw [Install.Provisioned]
    simp only [hp, Option.some.injEq, Pending.block.injEq, reduceCtorEq, false_implies,
      implies_true, and_true, forall_eq']
    rw [← activeID_enter]
    exact ⟨fun hm ↦ hm rfl, fun hm _ ↦ hm⟩
  · exact iff_of_true (fun hsig ↦ absurd hsig (by simp)) trivial
  · refine iff_of_true ?_ trivial
    rw [Install.HasQuota, hs]
    intro hsig
    obtain ⟨u, hu, husable⟩ := h hsig
    exact ⟨u, hu, usable_step husable hc⟩
  · have hu : s.Provisioned e := by
      cases e <;> try trivial
      case deliver id call => exact absurd rfl (hne id call)
    refine iff_of_true ?_ hu
    rw [Install.HasQuota, hs, hc]
    exact h

/-- **A signed-in session always has a usable quota record** in a run if and only if every user the
run switches a session to has a record by then. -/
theorem hasQuota_iff {s₀ t : Install} {es : List Event} (hs : s₀.session.isSignedIn = false)
    (hrun : run Install.step s₀ es = some t) :
    Throughout Install.step Install.HasQuota s₀ es ↔
      Meets Install.step Install.Provisioned s₀ es := by
  have h₀ : s₀.HasQuota := fun hsig ↦ absurd hsig (by simp [hs])
  exact (meets_iff_throughout (I := fun _ ↦ True) (fun _ _ _ _ _ _ _ ↦ trivial)
    (fun _ _ _ _ hm hstep ↦ hasQuota_step hm hstep) trivial h₀ hrun).symm

/-! ## A Facebook login -/

/-- A Facebook login whose `setupUser` call is over before Home is opened. -/
def patientLogin : List Event :=
  [.tap 0 (.loginButton (some "token")), .respond 0 (some aliceAccount) none, .deliver 0 0,
    .cloud (.deliver 0), .cloud (.deliver 0), .deliver 0 0]

theorem hasQuota_patientLogin :
    Throughout Install.step Install.HasQuota (.fresh (.start .plain [])) patientLogin := by
  obtain ⟨t, ht⟩ := Option.isSome_iff_exists.mp
    (show (run Install.step (.fresh (.start .plain [])) patientLogin).isSome by decide)
  refine (hasQuota_iff rfl ht).mpr ?_
  rw [patientLogin, meets_cons rfl, meets_cons rfl, meets_cons rfl, meets_cons rfl, meets_cons rfl,
    meets_cons rfl]
  refine ⟨trivial, trivial, ⟨?_, ?_⟩, trivial, trivial, ⟨?_, ?_⟩, trivial⟩
  · intro o ho
    exact Pending.noConfusion (Option.some.inj ho)
  · intro _ _ _ _ hsig
    exact Bool.noConfusion hsig
  · intro o ho
    obtain rfl : o = { flow := .facebook, uid := some alice } :=
      (Pending.block.inj (Option.some.inj ho)).symm
    exact ⟨alice, rfl, 100, by decide⟩
  · intro _ _ _ ho
    exact Pending.noConfusion (Option.some.inj ho)

/-- A Facebook login that does not wait for `setupUser`. -/
def hastyLogin : List Event :=
  [.tap 0 (.loginButton (some "token")), .respond 0 (some aliceAccount) none, .deliver 0 0,
    .deliver 0 0]

/-- **Home can be open before there is a quota record.** -/
theorem not_hasQuota : ¬∀ (s₀ : Install) (es : List Event) (t : Install), s₀ = .fresh s₀.cloud →
    run Install.step s₀ es = some t → t.HasQuota := by
  intro h
  obtain ⟨t, ht⟩ : ∃ t, run Install.step (.fresh (.start .plain [])) hastyLogin = some t := ⟨_, rfl⟩
  have hq := h _ hastyLogin t rfl ht
  obtain rfl := Option.some.inj ht
  obtain ⟨u, hu, n, hn⟩ := hq rfl
  obtain rfl : alice = u := Option.some.inj hu
  exact LimitRead.noConfusion hn

end LandCap
