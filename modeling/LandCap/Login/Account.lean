import LandCap.Login.Basic

/-!
# The user of the session and the account of Firebase Auth

The app reads and writes under the id in `User.session`, while the server checks the account that
is current in Firebase Auth.  Nothing keeps the two together: signing out clears only a flag, a
skip with a stored guest id signs nobody in, and an unverified sign-in or a registration changes
the current account but not the stored id.

Here the flows are carried out one after another.  `Install.perform` lets one flow run to its end in
the transition system of `Install.step` (`exists_run_of_perform`); `Operation.sessionAfter` and
`Operation.authAfter` say what is left of it, and `perform_eq` connects the two.  On this sequential
model `sameAccount_iff` gives the exact condition: the ids agree throughout a run of operations if
and only if every operation is `Faithful` to the account in the state it is carried out in.
-/

set_option autoImplicit false

namespace LandCap

open PathTree Runs

/-! ## Operations -/

/-- A flow from its beginning to its end, with the answers it gets; or signing out, or starting the
app again.  `call` names the flow's `setupUser` call. -/
inductive Operation where
  | signIn (email password : String) (answer : Except AuthError AuthUser)
  | register (name email password : String) (answer : Except AuthError AuthUser)
      (verification : Option AuthError) (call : ℕ)
  | facebook (token : String) (answer : Except AuthError AuthUser) (call : ℕ)
  /-- The answer is used when the app has to sign in anonymously. -/
  | skip (answer : Except AuthError AuthUser) (call : ℕ)
  | signOut
  | relaunch

/-- What a completion handler is given: a result or an error. -/
abbrev Answer := Option AuthUser × Option AuthError

def toAnswer : Except AuthError AuthUser → Answer
  | .ok user => (some user, none)
  | .error error => (none, some error)

/-- Let the flow under the name `0` run to its end: its requests get the answers in order. -/
def Install.finish (call : ℕ) : ℕ → List Answer → Install → Option Install
  | 0, _, _ => none
  | fuel + 1, answers, s =>
    match s.pending 0, answers with
    | none, _ => some s
    | some (.request _), [] => none
    | some (.request _), (authResult, error) :: answers =>
      (s.step (.respond 0 authResult error)).bind (finish call fuel answers)
    | some _, answers => (s.step (.deliver 0 call)).bind (finish call fuel answers)

/-- Start a flow and let it run to its end.  No flow takes more than six further steps. -/
def Install.flow (s : Install) (tap : Tap) (call : ℕ) (answers : List Answer) : Option Install :=
  (s.step (.tap 0 tap)).bind (Install.finish call 7 answers)

/-- Carry out an operation. -/
def Install.perform (s : Install) : Operation → Option Install
  | .signIn email password answer =>
    s.flow (.signInBtn (some email) (some password)) 0 [toAnswer answer]
  | .register name email password answer verification call =>
    s.flow (.registerBtn (some name) (some email) (some password)) call
      [toAnswer answer, (none, verification)]
  | .facebook token answer call => s.flow (.loginButton (some token)) call [toAnswer answer]
  | .skip answer call => s.flow .skipOkay call [toAnswer answer]
  | .signOut => s.step .signOut
  | .relaunch => s.step .relaunch

/-- The flow under the name `0` is over and the app is alive. -/
structure Install.Quiet (s : Install) : Prop where
  pending : s.pending 0 = none
  trapped : s.trapped = false

/-- The session after an operation. -/
def Operation.sessionAfter (session : Session) : Operation → Session
  | .signIn _ _ (.ok user) =>
    if user.isEmailVerified then
      { session with isSignedIn := true, storedUserID := some user.uid, isAnonymous := false }
    else session
  | .register _ _ _ (.ok user) verification _ =>
    { session with
      isSignedIn := session.isSignedIn || (user.isEmailVerified && verification.isNone)
      isAnonymous := false }
  | .facebook _ (.ok user) _ =>
    { session with isSignedIn := true, storedUserID := some user.uid, isAnonymous := false }
  | .skip (.ok user) _ =>
    { session with
      isSignedIn := true
      isAnonymous := true
      anonymousUserID := session.anonymousUserID.or (some user.uid) }
  | .skip (.error _) _ =>
    if session.anonymousUserID = none then session
    else { session with isSignedIn := true, isAnonymous := true }
  | .signOut => { session with isSignedIn := false }
  | _ => session

/-- The current account after an operation. -/
def Operation.authAfter (session : Session) (auth : Option AuthUser) :
    Operation → Option AuthUser
  | .signIn _ _ (.ok user) | .register _ _ _ (.ok user) _ _ | .facebook _ (.ok user) _ => some user
  | .skip (.ok user) _ => if session.anonymousUserID = none then some user else auth
  | _ => auth

/-! ## Carrying out a flow -/

/-- From `s` to `m` the session has become this one, and these alerts and openings have been
added. -/
structure Leaves (s m : Install) (session : Session) (alerts : List Alert)
    (opened : List Opening) : Prop where
  session : m.session = session
  alerts : m.alerts = s.alerts ++ alerts
  opened : m.opened = opened ++ s.opened

theorem Leaves.trans {s m s' : Install} {session session' : Session} {alerts alerts' : List Alert}
    {opened : List Opening} (h : Leaves s m session alerts [])
    (h' : Leaves m s' session' alerts' opened) :
    Leaves s s' session' (alerts ++ alerts') opened :=
  ⟨h'.session, by rw [h'.alerts, h.alerts, List.append_assoc], by rw [h'.opened, h.opened]; rfl⟩

/-- The flow is told `e`: it is over, or its block is waiting. -/
structure Told (s m : Install) (e : Effect) : Prop where
  leaves : Leaves s m e.session e.alerts []
  next : m.pending 0 = e.next
  trapped : m.trapped = e.trap

section Finish

variable {call fuel : ℕ} {answers : List Answer} {s s' : Install}

/-- A request is answered and its handler runs. -/
theorem finish_request {r : Request} {authResult : Option AuthUser} {error : Option AuthError}
    (h : Install.finish call (fuel + 2) ((authResult, error) :: answers) s = some s')
    (hp : s.pending 0 = some (.request r)) (ht : s.trapped = false) :
    ∃ m, Install.finish call fuel answers m = some s' ∧
      m.auth = r.authAfter s.auth authResult error ∧
      Told s m (complete s.session (r.authAfter s.auth authResult error) r authResult error) := by
  simp only [Install.finish.eq_def call (fuel + 2), hp, Install.step, ht, Install.respond,
    Bool.false_eq_true, if_false, Option.bind_some] at h
  simp only [Install.finish.eq_def call (fuel + 1), Function.update_self, Install.step,
    Install.deliver, Bool.false_eq_true, if_false] at h
  obtain ⟨m, hm, hf⟩ := Option.bind_eq_some_iff.mp h
  obtain ⟨cloud, -, rfl⟩ := Option.map_eq_some_iff.mp hm
  exact ⟨_, hf, rfl, ⟨rfl, rfl, rfl⟩, by simp, rfl⟩

/-- A flow starts. -/
theorem flow_start {tap : Tap} (h : s.flow tap call answers = some s') (hq : s.Quiet) :
    ∃ m, Install.finish call 7 answers m = some s' ∧ Leaves s m s.session [] [] ∧
      m.pending 0 = tap.start s.session ∧ m.auth = s.auth ∧ m.trapped = false := by
  simp only [Install.flow, Install.step, hq.pending, hq.trapped, Bool.false_eq_true, ne_eq,
    not_true, or_self, if_false, Option.bind_some] at h
  exact ⟨_, h, ⟨rfl, (List.append_nil _).symm, rfl⟩, by simp, rfl, rfl⟩

/-- The flow sends a request and its handler runs; what the handler leaves pending decides how the
flow goes on. -/
theorem flow_request {tap : Tap} {r : Request} {authResult : Option AuthUser}
    {error : Option AuthError} (h : s.flow tap call ((authResult, error) :: answers) = some s')
    (hq : s.Quiet) (htap : tap.start s.session = some (.request r)) :
    ∃ m, Install.finish call 5 answers m = some s' ∧ m.auth = r.authAfter s.auth authResult error ∧
      Told s m (complete s.session (r.authAfter s.auth authResult error) r authResult error) := by
  obtain ⟨m₀, h₀, hleaves, hp, hauth, ht⟩ := flow_start h hq
  obtain ⟨m, hf, hauth', htold⟩ := finish_request h₀ (hp.trans htap) ht
  rw [hauth] at hauth' htold
  rw [hleaves.session] at htold
  refine ⟨m, hf, hauth', ?_, htold.next, htold.trapped⟩
  simpa using hleaves.trans htold.leaves

/-- Nothing is pending: the flow is over. -/
theorem finish_none (h : Install.finish call (fuel + 1) answers s = some s')
    (hp : s.pending 0 = none) : s' = s := by
  simp only [Install.finish.eq_def call (fuel + 1), hp] at h
  exact (Option.some.inj h).symm

/-- A block is pending: it opens Home, and the flow is over. -/
theorem finish_block {o : Opening} (h : Install.finish call (fuel + 2) answers s = some s')
    (hp : s.pending 0 = some (.block o)) (ht : s.trapped = false) : s' = s.enter 0 o := by
  simp only [Install.finish.eq_def call (fuel + 2), hp, Install.step, ht, Install.deliver,
    Bool.false_eq_true, if_false, Option.bind_some] at h
  exact finish_none h (by simp [Install.enter])

theorem quiet_of_none (h : Install.finish call (fuel + 1) answers s = some s')
    (hp : s.pending 0 = none) (ht : s.trapped = false) :
    s'.Quiet ∧ s'.session = s.session ∧ s'.auth = s.auth := by
  obtain rfl := finish_none h hp
  exact ⟨⟨hp, ht⟩, rfl, rfl⟩

theorem quiet_of_block {o : Opening} (h : Install.finish call (fuel + 2) answers s = some s')
    (hp : s.pending 0 = some (.block o)) (ht : s.trapped = false) :
    s'.Quiet ∧ s'.session = o.enter s.session ∧ s'.auth = s.auth := by
  obtain rfl := finish_block h hp ht
  exact ⟨⟨by simp [Install.enter], ht⟩, rfl, rfl⟩

end Finish

/-! ## What is left of an operation -/

section Perform

variable {s s' : Install}

theorem perform_signIn {email password : String} {answer : Except AuthError AuthUser}
    (hq : s.Quiet) (h : s.perform (.signIn email password answer) = some s') :
    s'.Quiet ∧ s'.session = (Operation.signIn email password answer).sessionAfter s.session ∧
      s'.auth = (Operation.signIn email password answer).authAfter s.session s.auth := by
  obtain ⟨m, hf, hauth, ⟨hsession, -, -⟩, hnext, htrap⟩ := flow_request h hq rfl
  rcases answer with error | user
  · simp only [complete, Effect.skip, ne_eq, reduceCtorEq, not_false_eq_true, if_true]
      at hsession hnext htrap
    obtain ⟨hq', hs', ha'⟩ := quiet_of_none hf hnext htrap
    exact ⟨hq', hs'.trans hsession, ha'.trans hauth⟩
  · cases hv : user.isEmailVerified with
    | false =>
      simp only [complete, Effect.skip, ne_eq, not_true, if_false, hv,
        Bool.false_eq_true] at hsession hnext htrap
      obtain ⟨hq', hs', ha'⟩ := quiet_of_none hf hnext htrap
      exact ⟨hq', by rw [hs', hsession, Operation.sessionAfter, hv]; rfl, ha'.trans hauth⟩
    | true =>
      simp only [complete, Effect.skip, ne_eq, not_true, if_false, if_true, hv]
        at hsession hnext htrap
      obtain ⟨hq', hs', ha'⟩ := quiet_of_block hf hnext htrap
      exact ⟨hq', by rw [hs', hsession, Operation.sessionAfter, hv]; rfl, ha'.trans hauth⟩

theorem perform_facebook {token : String} {answer : Except AuthError AuthUser} {call : ℕ}
    (hq : s.Quiet) (h : s.perform (.facebook token answer call) = some s') :
    s'.Quiet ∧ s'.session = (Operation.facebook token answer call).sessionAfter s.session ∧
      s'.auth = (Operation.facebook token answer call).authAfter s.session s.auth := by
  obtain ⟨m, hf, hauth, ⟨hsession, -, -⟩, hnext, htrap⟩ := flow_request h hq rfl
  rcases answer with error | user
  · simp only [complete, Effect.skip, reduceCtorEq, if_false] at hsession hnext htrap
    obtain ⟨hq', hs', ha'⟩ := quiet_of_none hf hnext htrap
    exact ⟨hq', hs'.trans hsession, ha'.trans hauth⟩
  · simp only [complete, if_true] at hsession hnext htrap
    obtain ⟨hq', hs', ha'⟩ := quiet_of_block hf hnext htrap
    exact ⟨hq', by rw [hs', hsession]; rfl, ha'.trans hauth⟩

theorem perform_skip {answer : Except AuthError AuthUser} {call : ℕ}
    (hq : s.Quiet) (h : s.perform (.skip answer call) = some s') :
    s'.Quiet ∧ s'.session = (Operation.skip answer call).sessionAfter s.session ∧
      s'.auth = (Operation.skip answer call).authAfter s.session s.auth := by
  cases hg : s.session.anonymousUserID with
  | some g =>
    -- the stored guest id is used again: there is only the block
    have htap : Tap.skipOkay.start s.session = some (.block { flow := .skip, uid := none }) := by
      rw [Tap.start, if_neg (by simp [hg])]
    obtain ⟨m, hf, hleaves, hp, hauth, ht⟩ := flow_start h hq
    obtain ⟨hq', hs', ha'⟩ := quiet_of_block hf (hp.trans htap) ht
    refine ⟨hq', ?_, ?_⟩
    · rw [hs', hleaves.session]
      cases answer <;> simp [Operation.sessionAfter, Opening.enter, hg]
    · rw [ha', hauth]
      cases answer <;> simp [Operation.authAfter, hg]
  | none =>
    have htap : Tap.skipOkay.start s.session = some (.request .signInAnonymously) := by
      rw [Tap.start, if_pos hg]
    obtain ⟨m, hf, hauth, ⟨hsession, -, -⟩, hnext, htrap⟩ := flow_request h hq htap
    rcases answer with error | user
    · simp only [complete, Effect.skip] at hsession hnext htrap
      obtain ⟨hq', hs', ha'⟩ := quiet_of_none hf hnext htrap
      exact ⟨hq', by rw [hs', hsession, Operation.sessionAfter, if_pos hg], ha'.trans hauth⟩
    · simp only [complete, Effect.skip] at hsession hnext htrap
      obtain ⟨hq', hs', ha'⟩ := quiet_of_block hf hnext htrap
      refine ⟨hq', by rw [hs', hsession, Operation.sessionAfter, hg]; rfl, ?_⟩
      rw [ha', hauth, Operation.authAfter, if_pos hg]
      rfl

theorem perform_register {name email password : String} {answer : Except AuthError AuthUser}
    {verification : Option AuthError} {call : ℕ} (hq : s.Quiet)
    (h : s.perform (.register name email password answer verification call) = some s') :
    s'.Quiet ∧
      s'.session
        = (Operation.register name email password answer verification call).sessionAfter s.session ∧
      s'.auth
        = (Operation.register name email password answer verification call).authAfter s.session
            s.auth := by
  obtain ⟨m, hf, hauth, ⟨hsession, -, -⟩, hnext, htrap⟩ := flow_request h hq rfl
  rcases answer with error | user
  · simp only [complete, Effect.skip, reduceCtorEq, if_false] at hsession hnext htrap
    obtain ⟨hq', hs', ha'⟩ := quiet_of_none hf hnext htrap
    exact ⟨hq', hs'.trans hsession, ha'.trans hauth⟩
  · -- the account exists: a verification mail is asked for, and its handler runs
    have hm : m.auth = some user := hauth
    simp only [complete, Request.authAfter, if_true, Option.some_or, Option.map_some]
      at hsession hnext htrap
    obtain ⟨n, hend, hn, ⟨hs₃, -, -⟩, hp₃, ht₃⟩ := finish_request hf hnext htrap
    rw [Request.authAfter, hm] at hn
    rw [Request.authAfter, hm, hsession] at hs₃ hp₃ ht₃
    rcases verification with - | error
    · cases hv : user.isEmailVerified with
      | false =>
        simp only [complete, Effect.skip, hv, if_true, if_false, Bool.false_eq_true] at hs₃ hp₃ ht₃
        obtain ⟨hq', hs', ha'⟩ := quiet_of_none hend hp₃ ht₃
        refine ⟨hq', ?_, ha'.trans hn⟩
        rw [hs', hs₃, Operation.sessionAfter, hv, Bool.false_and, Bool.or_false]
      | true =>
        simp only [complete, Effect.skip, hv, if_true] at hs₃ hp₃ ht₃
        obtain ⟨hq', hs', ha'⟩ := quiet_of_block hend hp₃ ht₃
        refine ⟨hq', ?_, ha'.trans hn⟩
        rw [hs', hs₃, Operation.sessionAfter, hv]
        simp [Opening.enter]
    · simp only [complete, Effect.skip, reduceCtorEq, if_false] at hs₃ hp₃ ht₃
      obtain ⟨hq', hs', ha'⟩ := quiet_of_none hend hp₃ ht₃
      refine ⟨hq', ?_, ha'.trans hn⟩
      rw [hs', hs₃, Operation.sessionAfter]
      simp

/-- **What is left of an operation**: the sequential model is what the flows do when they are
carried out one after another. -/
theorem perform_eq {op : Operation} (hq : s.Quiet) (h : s.perform op = some s') :
    s'.Quiet ∧ s'.session = op.sessionAfter s.session ∧
      s'.auth = op.authAfter s.session s.auth := by
  cases op with
  | signIn email password answer => exact perform_signIn hq h
  | register name email password answer verification call => exact perform_register hq h
  | facebook token answer call => exact perform_facebook hq h
  | skip answer call => exact perform_skip hq h
  | signOut =>
    rw [Install.perform, Install.step, hq.trapped] at h
    obtain rfl := Option.some.inj h
    exact ⟨⟨hq.pending, rfl⟩, rfl, rfl⟩
  | relaunch =>
    obtain rfl := Option.some.inj h
    exact ⟨⟨rfl, rfl⟩, rfl, rfl⟩

end Perform

/-! ## Operations are runs -/

theorem exists_run_of_finish {call fuel : ℕ} {answers : List Answer} {s s' : Install}
    (h : Install.finish call fuel answers s = some s') : ∃ es, run Install.step s es = some s' := by
  induction fuel generalizing answers s with
  | zero => exact absurd h (by simp [Install.finish])
  | succ fuel ih =>
    rw [Install.finish.eq_def] at h
    simp only at h
    split at h
    · exact ⟨[], h⟩
    · exact absurd h (by simp)
    · obtain ⟨m, hm, hf⟩ := Option.bind_eq_some_iff.mp h
      obtain ⟨es, hes⟩ := ih hf
      exact ⟨_ :: es, run_cons_eq_some.mpr ⟨m, hm, hes⟩⟩
    · obtain ⟨m, hm, hf⟩ := Option.bind_eq_some_iff.mp h
      obtain ⟨es, hes⟩ := ih hf
      exact ⟨_ :: es, run_cons_eq_some.mpr ⟨m, hm, hes⟩⟩

theorem exists_run_of_flow {s s' : Install} {tap : Tap} {call : ℕ} {answers : List Answer}
    (h : s.flow tap call answers = some s') : ∃ es, run Install.step s es = some s' := by
  obtain ⟨m, hm, hf⟩ := Option.bind_eq_some_iff.mp h
  obtain ⟨es, hes⟩ := exists_run_of_finish hf
  exact ⟨_ :: es, run_cons_eq_some.mpr ⟨m, hm, hes⟩⟩

/-- **An operation is a run** of the install. -/
theorem exists_run_of_perform {s s' : Install} {op : Operation} (h : s.perform op = some s') :
    ∃ es, run Install.step s es = some s' := by
  cases op with
  | signIn | register | facebook | skip => exact exists_run_of_flow h
  | signOut => exact ⟨[.signOut], run_cons_eq_some.mpr ⟨s', h, rfl⟩⟩
  | relaunch => exact ⟨[.relaunch], run_cons_eq_some.mpr ⟨s', h, rfl⟩⟩

/-! ## One account -/

/-- While somebody is signed in, the id the app reads and writes under is the current account's. -/
def Install.SameAccount (s : Install) : Prop :=
  s.session.isSignedIn = true →
    ∃ user, s.auth = some user ∧ s.session.activeID = some user.uid

/-- The operation leaves the current account and the session's user the same: a sign-in that is
refused for want of a verified address is for the user who is signed in already; a registration
that ends signed in is for the user whose id is stored; and a skip that uses the stored guest id is
made while that guest is current. -/
def Install.Faithful (s : Install) : Operation → Prop
  | .signIn _ _ (.ok user) => user.isEmailVerified = false → s.session.isSignedIn = true →
    s.session.activeID = some user.uid
  | .register _ _ _ (.ok user) verification _ =>
    (s.session.isSignedIn = true ∨ user.isEmailVerified = true ∧ verification = none) →
      s.session.currentUserID = user.uid
  | .skip .. => ∀ g, s.session.anonymousUserID = some g → ∃ user, s.auth = some user ∧ g = user.uid
  | _ => True

/-- **The step lemma**: from agreement, an operation leads to agreement exactly if it is
faithful. -/
theorem sameAccount_perform {s s' : Install} {op : Operation} (hq : s.Quiet) (h : s.SameAccount)
    (hop : s.perform op = some s') : s'.SameAccount ↔ s.Faithful op := by
  obtain ⟨-, hs, ha⟩ := perform_eq hq hop
  rw [Install.SameAccount, hs, ha]
  cases op with
  | signIn email password answer =>
    rcases answer with error | user
    · exact iff_of_true h trivial
    · rw [Operation.sessionAfter, Operation.authAfter, Install.Faithful]
      cases hv : user.isEmailVerified <;> simp [Session.activeID, Session.currentUserID]
  | register name email password answer verification call =>
    rcases answer with error | user
    · exact iff_of_true h trivial
    · rw [Operation.sessionAfter, Operation.authAfter, Install.Faithful]
      simp [Session.activeID, Session.currentUserID]
  | facebook token answer call =>
    rcases answer with error | user
    · exact iff_of_true h trivial
    · refine iff_of_true (fun _ ↦ ?_) trivial
      simp [Operation.sessionAfter, Operation.authAfter, Session.activeID, Session.currentUserID]
  | skip answer call =>
    rw [Install.Faithful]
    cases hg : s.session.anonymousUserID with
    | some g =>
      rcases answer with error | user <;>
        simp [Operation.sessionAfter, Operation.authAfter, hg, Session.activeID]
    | none =>
      rcases answer with error | user
      · simp only [Operation.sessionAfter, Operation.authAfter, hg, if_true]
        exact iff_of_true h (by simp)
      · simp [Operation.sessionAfter, Operation.authAfter, hg, Session.activeID]
  | signOut => exact iff_of_true (fun hsig ↦ absurd hsig (by simp [Operation.sessionAfter])) trivial
  | relaunch => exact iff_of_true h trivial

/-- **The app's user is the current account** after every operation of a run if and only if every
operation of the run is faithful. -/
theorem sameAccount_iff {s₀ t : Install} {ops : List Operation} (hq : s₀.Quiet)
    (hs : s₀.session.isSignedIn = false) (hrun : run Install.perform s₀ ops = some t) :
    Throughout Install.perform Install.SameAccount s₀ ops ↔
      Meets Install.perform Install.Faithful s₀ ops := by
  have h₀ : s₀.SameAccount := fun hsig ↦ absurd hsig (by simp [hs])
  exact (meets_iff_throughout (I := Install.Quiet) (fun _ _ _ hq _ _ hop ↦ (perform_eq hq hop).1)
    (fun _ _ _ hq h hop ↦ sameAccount_perform hq h hop) hq h₀ hrun).symm

/-! ## A guest comes back -/

/-- A guest looks around, signs out, and skips again. -/
def skippingTwice : List Operation :=
  [.skip (.ok guestAccount) 0, .signOut, .skip (.ok guestAccount) 1, .relaunch]

theorem sameAccount_skippingTwice :
    Throughout Install.perform Install.SameAccount (.fresh (.start .plain [])) skippingTwice := by
  obtain ⟨t, ht⟩ : ∃ t, run Install.perform (.fresh (.start .plain [])) skippingTwice = some t :=
    ⟨_, rfl⟩
  refine (sameAccount_iff ⟨rfl, rfl⟩ rfl ht).mpr ?_
  rw [skippingTwice, meets_cons rfl, meets_cons rfl, meets_cons rfl, meets_cons rfl]
  refine ⟨fun g hg ↦ ?_, trivial, fun g hg ↦ ?_, trivial, trivial⟩
  · exact absurd hg (by simp [Install.fresh, Session.fresh])
  · exact ⟨guestAccount, rfl, (Option.some.inj hg).symm⟩

/-- A guest signs out, `alice` signs in and out, and the guest comes back. -/
def comingBack : List Operation :=
  [.skip (.ok guestAccount) 0, .signOut,
    .signIn "alice@example.org" "secret" (.ok aliceAccount), .signOut,
    .skip (.ok guestAccount) 1]

/-- **A guest can read and write under an id that is not the current account's.** -/
theorem not_sameAccount : ¬∀ (s₀ : Install) (ops : List Operation) (t : Install),
    s₀ = .fresh s₀.cloud → run Install.perform s₀ ops = some t → t.SameAccount := by
  intro h
  obtain ⟨t, ht⟩ : ∃ t, run Install.perform (.fresh (.start .plain [])) comingBack = some t :=
    ⟨_, rfl⟩
  have hsame := h _ comingBack t rfl ht
  obtain rfl := Option.some.inj ht
  obtain ⟨user, huser, hactive⟩ := hsame rfl
  obtain rfl : aliceAccount = user := Option.some.inj huser
  have huid : guest = alice := Option.some.inj hactive
  exact absurd huid (by decide)

end LandCap
