import LandCap.Login.Account

/-!
# Flows that fail

A flow that does not get as far as `nextController` should leave the session as it was, and tell the
user once: with an alert about the error, or with a notice (`notices`) if the last step succeeded.

`FailsCleanly` says this of a flow that has run to its end, and `fails_cleanly_iff` when it is so.
A flow is a chain of handlers, and what a handler does is an `Effect`; `finish_request` takes the
flow from a request over its handler, and what a flow leaves (`Leaves`) is put together from the
effects on its way.  Only registering has two of them.
-/

set_option autoImplicit false

namespace LandCap

open PathTree Runs

/-! ## What is to hold -/

/-- The alerts that report a success, or ask for a verification. -/
def notices : List Alert :=
  [⟨.localized "Email Verification", .localized "Email Ver Message"⟩,
    ⟨.localized "Account Created", .localized "Email Ver Message"⟩,
    ⟨.localized "Request Sent", .localized "Request Message"⟩]

/-- If the flow from `s` to `s'` has not called `nextController`, it has left the session alone and
presented one alert, and a notice only if there was no error in its last step. -/
def FailsCleanly (s s' : Install) (lastError : Option AuthError) : Prop :=
  s'.opened = s.opened → s'.session = s.session ∧
    ∃ alert, s'.alerts = s.alerts ++ [alert] ∧ (alert ∈ notices → lastError = none)

/-- The error of the last step of a flow with these answers. -/
def Tap.lastError (answers : List Answer) : Tap → Option AuthError
  | .registerBtn .. =>
    match answers with
    | (_, none) :: (_, error) :: _ => error
    | (_, error) :: _ => error
    | [] => none
  | _ => answers.head?.bind Prod.snd

/-- The condition, for each flow. -/
def Tap.Harmless (session : Session) (auth : Option AuthUser) (answers : List Answer) : Tap → Prop
  | .signInBtn email password =>
    email.isSome ∧ password.isSome ∧ answers.head? ≠ some (none, none)
  | .registerBtn name email password =>
    name.isSome ∧ email.isSome ∧ password.isSome ∧
      match answers with
      | (authResult, none) :: rest =>
        -- a verification mail is asked for, and a guest's account is verified by then
        (authResult.or auth).isSome ∧ (session.isAnonymous = true → ∀ user, authResult = some user →
          user.isEmailVerified = true ∧ rest.head?.bind Prod.snd = none)
      | _ => True
  | .requestNewPassword email => email.isSome ∧ answers.head?.bind Prod.snd = none
  | .skipOkay => session.anonymousUserID.isSome ∨ answers.head? ≠ some (none, none)
  | .loginButton _ => True

/-! ## What a flow leaves -/

section Leaves

variable {s s' m : Install} {session : Session} {alerts : List Alert} {call fuel : ℕ}
  {answers : List Answer} {lastError : Option AuthError}

theorem failsCleanly_iff_of_leaves {opened : List Opening} (h : Leaves s m session alerts opened) :
    FailsCleanly s m lastError ↔ opened ≠ [] ∨ (session = s.session ∧
      ∃ alert, alerts = [alert] ∧ (alert ∈ notices → lastError = none)) := by
  rw [FailsCleanly, h.opened, h.session, h.alerts, List.append_left_eq_self]
  simp only [List.append_cancel_left_eq]
  exact Decidable.imp_iff_not_or

/-- **The end of a flow.**  After its last handler a flow either opens Home or is over. -/
theorem failsCleanly_iff_of_told {e : Effect} (h : Told s m e)
    (hnext : e.next = none ∨ e.trap = false ∧ ∃ o, e.next = some (.block o))
    (hf : Install.finish call (fuel + 2) answers m = some s') :
    FailsCleanly s s' lastError ↔ e.next.isSome ∨ (e.session = s.session ∧
      ∃ alert, e.alerts = [alert] ∧ (alert ∈ notices → lastError = none)) := by
  rcases hnext with hnone | ⟨htrap, o, ho⟩
  · obtain rfl := finish_none hf (h.next.trans hnone)
    rw [failsCleanly_iff_of_leaves h.leaves, hnone]
    simp
  · obtain rfl := finish_block hf (h.next.trans ho) (h.trapped.trans htrap)
    have henter : Leaves m (m.enter 0 o) (o.enter m.session) [] [o] :=
      ⟨rfl, (List.append_nil _).symm, rfl⟩
    rw [failsCleanly_iff_of_leaves (h.leaves.trans henter), ho]
    simp

end Leaves

section Flow

variable {s s' : Install} {tap : Tap} {call : ℕ} {answers : List Answer}
  {lastError : Option AuthError}

/-- A flow that does not start tells the user nothing. -/
theorem not_failsCleanly_of_start (hq : s.Quiet) (h : s.flow tap call answers = some s')
    (hstart : tap.start s.session = none) : ¬FailsCleanly s s' lastError := by
  obtain ⟨m, hf, hleaves, hp, -, -⟩ := flow_start h hq
  obtain rfl := finish_none hf (hp.trans hstart)
  rw [failsCleanly_iff_of_leaves hleaves]
  simp

/-- A flow that asks something gets an answer, and its handler runs. -/
theorem flow_told {r : Request} (hq : s.Quiet) (h : s.flow tap call answers = some s')
    (hstart : tap.start s.session = some (.request r)) :
    ∃ authResult error rest m, answers = (authResult, error) :: rest ∧
      Install.finish call 5 rest m = some s' ∧
      m.auth = r.authAfter s.auth authResult error ∧
      Told s m (complete s.session (r.authAfter s.auth authResult error) r authResult error) := by
  rcases answers with - | ⟨⟨authResult, error⟩, rest⟩
  · obtain ⟨m, hf, -, hp, -, -⟩ := flow_start h hq
    simp only [Install.finish.eq_def call 7, hp.trans hstart] at hf
    exact absurd hf (by simp)
  · obtain ⟨m, hf, hauth, htold⟩ := flow_request h hq hstart
    exact ⟨authResult, error, rest, m, rfl, hf, hauth, htold⟩

/-- A flow that opens Home at once. -/
theorem failsCleanly_of_block {o : Opening} (hq : s.Quiet)
    (h : s.flow tap call answers = some s') (hstart : tap.start s.session = some (.block o)) :
    FailsCleanly s s' lastError := by
  obtain ⟨m, hf, hleaves, hp, -, ht⟩ := flow_start h hq
  have htold : Told s m { Effect.skip s.session with next := some (.block o) } :=
    ⟨hleaves, hp.trans hstart, ht⟩
  exact (failsCleanly_iff_of_told htold (Or.inr ⟨rfl, o, rfl⟩) hf).mpr (Or.inl rfl)

/-! ## The flows -/

/-- A handler that only calls `handling` on an error is clean. -/
theorem failsCleanly_of_handling {m : Install} {e : Effect} {fuel : ℕ} (h : Told s m e)
    (hnext : e.next = none) (hsession : e.session = s.session)
    (halerts : ∃ error, e.alerts = handling (some error))
    (hf : Install.finish call (fuel + 2) answers m = some s') : FailsCleanly s s' lastError := by
  obtain ⟨error, halerts⟩ := halerts
  rw [failsCleanly_iff_of_told h (Or.inl hnext) hf]
  refine Or.inr ⟨hsession, _, halerts, fun hmem ↦ ?_⟩
  exact absurd hmem (by simp [notices])

theorem signInBtn_iff {email password : Option String} (hq : s.Quiet)
    (h : s.flow (.signInBtn email password) call answers = some s') :
    FailsCleanly s s' ((Tap.signInBtn email password).lastError answers) ↔
      (Tap.signInBtn email password).Harmless s.session s.auth answers := by
  rcases email with - | email
  · exact iff_of_false (not_failsCleanly_of_start hq h rfl) fun hh ↦ absurd hh.1 (by simp)
  rcases password with - | password
  · exact iff_of_false (not_failsCleanly_of_start hq h rfl) fun hh ↦ absurd hh.2.1 (by simp)
  obtain ⟨authResult, error, rest, m, rfl, hf, -, htold⟩ := flow_told hq h rfl
  rcases error with - | error
  · rcases authResult with - | user
    · -- the handler unwraps a missing result
      rw [failsCleanly_iff_of_told htold (Or.inl rfl) hf]
      simp [complete, Effect.skip, Tap.Harmless]
    · refine iff_of_true ?_ ⟨rfl, rfl, by simp⟩
      cases hv : user.isEmailVerified with
      | false =>
        rw [failsCleanly_iff_of_told htold (Or.inl (by simp [complete, Effect.skip, hv])) hf]
        simp [complete, Effect.skip, hv, Tap.lastError]
      | true =>
        rw [failsCleanly_iff_of_told htold (Or.inr (by simp [complete, Effect.skip, hv])) hf]
        simp [complete, Effect.skip, hv]
  · refine iff_of_true ?_ ⟨rfl, rfl, by simp⟩
    exact failsCleanly_of_handling htold (by simp [complete, Effect.skip])
      (by simp [complete, Effect.skip]) ⟨error, by simp [complete]⟩ hf

/-- Being a guest no longer changes the session of a guest only. -/
theorem endGuest_eq_iff (session : Session) :
    { session with isAnonymous := false } = session ↔ session.isAnonymous = false := by
  refine ⟨fun h ↦ ?_, fun h ↦ ?_⟩
  · rw [← h]
  · rw [← h]

/-- **The verification mail**, asked for after an account has been created: the handler opens Home
for a verified account, and what the first handler has done to the session remains. -/
theorem verification_iff {m : Install} {user : AuthUser} {rest : List Answer} {fuel : ℕ}
    {e : Effect}
    (htold : Told s m e) (halerts : e.alerts = []) (htrap : e.trap = false)
    (hnext : ∃ registered, e.next = some (.request (.sendEmailVerification registered)))
    (hauth : m.auth = some user) (hf : Install.finish call (fuel + 4) rest m = some s') :
    FailsCleanly s s' (rest.head?.bind Prod.snd) ↔
      (user.isEmailVerified = true ∧ rest.head?.bind Prod.snd = none) ∨ e.session = s.session := by
  obtain ⟨registered, hnext⟩ := hnext
  rcases rest with - | ⟨⟨authResult', error⟩, rest⟩
  · simp only [Install.finish.eq_def call (fuel + 4), htold.next, hnext] at hf
    exact absurd hf (by simp)
  obtain ⟨m', hf', -, htold'⟩ :=
    finish_request hf (htold.next.trans hnext) (htold.trapped.trans htrap)
  -- the first handler has added nothing, so the second one says what the whole flow leaves
  have hwhole := htold.leaves.trans htold'.leaves
  rw [halerts, List.nil_append] at hwhole
  have htold'' : Told s m' _ := ⟨hwhole, htold'.next, htold'.trapped⟩
  simp only [Request.authAfter, hauth, htold.leaves.session] at htold''
  rcases error with - | error
  · cases hv : user.isEmailVerified with
    | false =>
      rw [failsCleanly_iff_of_told htold'' (Or.inl (by simp [complete, Effect.skip, hv])) hf']
      simp [complete, Effect.skip, hv]
    | true =>
      rw [failsCleanly_iff_of_told htold'' (Or.inr (by simp [complete, Effect.skip, hv])) hf']
      simp [complete, Effect.skip, hv]
  · rw [failsCleanly_iff_of_told htold'' (Or.inl (by simp [complete, Effect.skip])) hf']
    simp [complete, Effect.skip, handling, notices]

theorem registerBtn_iff {name email password : Option String} (hq : s.Quiet)
    (h : s.flow (.registerBtn name email password) call answers = some s') :
    FailsCleanly s s' ((Tap.registerBtn name email password).lastError answers) ↔
      (Tap.registerBtn name email password).Harmless s.session s.auth answers := by
  rcases name with - | name
  · exact iff_of_false (not_failsCleanly_of_start hq h rfl) fun hh ↦ absurd hh.1 (by simp)
  rcases email with - | email
  · exact iff_of_false (not_failsCleanly_of_start hq h rfl) fun hh ↦ absurd hh.2.1 (by simp)
  rcases password with - | password
  · exact iff_of_false (not_failsCleanly_of_start hq h rfl) fun hh ↦ absurd hh.2.2.1 (by simp)
  obtain ⟨authResult, error, rest, m, rfl, hf, hauth, htold⟩ := flow_told hq h rfl
  rcases error with - | error
  · have hcurrent : (Request.createUser name email password).authAfter s.auth authResult none
        = authResult.or s.auth := rfl
    rw [hcurrent] at hauth htold
    rcases hor : authResult.or s.auth with - | user
    · -- nobody is there to be sent a mail
      rw [hor] at htold
      rw [failsCleanly_iff_of_told htold (Or.inl (by simp [complete])) hf]
      simp [complete, Tap.Harmless, hor]
    · rw [hor] at htold hauth
      have hlast : (Tap.registerBtn (some name) (some email) (some password)).lastError
          ((authResult, none) :: rest) = rest.head?.bind Prod.snd := by
        rcases rest with - | ⟨⟨_, _⟩, _⟩ <;> rfl
      rw [hlast, verification_iff htold (by simp [complete]) (by simp [complete])
        ⟨authResult.map AuthUser.uid, by simp [complete]⟩ hauth hf]
      rcases authResult with - | user'
      · simp [complete, Tap.Harmless, hor]
      · obtain rfl : user' = user := by simpa using hor
        simp only [complete, if_true, endGuest_eq_iff, Tap.Harmless, Option.isSome_some, true_and,
          Option.some_or, Option.some.injEq, forall_eq']
        cases s.session.isAnonymous <;> simp
  · refine iff_of_true ?_ ⟨rfl, rfl, rfl, trivial⟩
    exact failsCleanly_of_handling htold (by simp [complete, Effect.skip])
      (by simp [complete, Effect.skip]) ⟨error, by simp [complete]⟩ hf

theorem requestNewPassword_iff {email : Option String} (hq : s.Quiet)
    (h : s.flow (.requestNewPassword email) call answers = some s') :
    FailsCleanly s s' ((Tap.requestNewPassword email).lastError answers) ↔
      (Tap.requestNewPassword email).Harmless s.session s.auth answers := by
  rcases email with - | email
  · exact iff_of_false (not_failsCleanly_of_start hq h rfl) fun hh ↦ absurd hh.1 (by simp)
  obtain ⟨authResult, error, rest, m, rfl, hf, -, htold⟩ := flow_told hq h rfl
  rw [failsCleanly_iff_of_told htold (Or.inl rfl) hf]
  cases error <;> simp [complete, Effect.skip, handling, Tap.Harmless, Tap.lastError]

theorem skipOkay_iff (hq : s.Quiet) (h : s.flow .skipOkay call answers = some s') :
    FailsCleanly s s' (Tap.skipOkay.lastError answers) ↔
      Tap.skipOkay.Harmless s.session s.auth answers := by
  cases hguest : s.session.anonymousUserID with
  | some guestID =>
    have hstart : Tap.skipOkay.start s.session = some (.block { flow := .skip, uid := none }) := by
      rw [Tap.start, if_neg (by simp [hguest])]
    exact iff_of_true (failsCleanly_of_block hq h hstart) (Or.inl (by rw [hguest]; rfl))
  | none =>
    have hstart : Tap.skipOkay.start s.session = some (.request .signInAnonymously) := by
      rw [Tap.start, if_pos hguest]
    obtain ⟨authResult, error, rest, m, rfl, hf, -, htold⟩ := flow_told hq h hstart
    rcases authResult with - | user
    · rw [failsCleanly_iff_of_told htold (Or.inl rfl) hf]
      cases error <;> simp [complete, Effect.skip, handling, notices, Tap.Harmless, hguest]
    · rw [failsCleanly_iff_of_told htold (Or.inr ⟨rfl, _, rfl⟩) hf]
      simp [complete, Tap.Harmless]

theorem loginButton_iff {token : String} (hq : s.Quiet)
    (h : s.flow (.loginButton (some token)) call answers = some s') :
    FailsCleanly s s' ((Tap.loginButton (some token)).lastError answers) ↔
      (Tap.loginButton (some token)).Harmless s.session s.auth answers := by
  obtain ⟨authResult, error, rest, m, rfl, hf, -, htold⟩ := flow_told hq h rfl
  refine iff_of_true ?_ trivial
  rcases error with - | error
  · rw [failsCleanly_iff_of_told htold (Or.inr (by simp [complete])) hf]
    simp [complete]
  · exact failsCleanly_of_handling htold (by simp [complete, Effect.skip])
      (by simp [complete, Effect.skip]) ⟨error, by simp [complete]⟩ hf

end Flow

/-- **A flow fails cleanly**, for every session it starts in and all answers it gets, exactly under
the condition of its kind.  The Facebook login is one with an active token. -/
theorem fails_cleanly_iff {s s' : Install} {tap : Tap} {call : ℕ} {answers : List Answer}
    (hq : s.Quiet) (htoken : tap ≠ .loginButton none)
    (h : s.flow tap call answers = some s') :
    FailsCleanly s s' (tap.lastError answers) ↔ tap.Harmless s.session s.auth answers := by
  cases tap with
  | signInBtn email password => exact signInBtn_iff hq h
  | registerBtn name email password => exact registerBtn_iff hq h
  | requestNewPassword email => exact requestNewPassword_iff hq h
  | skipOkay => exact skipOkay_iff hq h
  | loginButton token =>
    cases token with
    | none => exact absurd rfl htoken
    | some token => exact loginButton_iff hq h

/-- The verification mail cannot be sent. -/
def unsentMail : Option AuthError := some ⟨.other 17010, "Too many requests."⟩

/-- An install on which a guest has been. -/
def guestInstall : Install :=
  { Install.fresh (.start .plain []) with
    session := { Session.fresh with anonymousUserID := some guest, isAnonymous := true } }

theorem guestInstall_quiet : guestInstall.Quiet := ⟨rfl, rfl⟩

/-- A wrong password is reported once. -/
theorem fails_cleanly_wrongPassword :
    ∃ s', guestInstall.flow (.signInBtn (some "alice@example.org") (some "secret")) 0
        [(none, some ⟨.wrongPassword, "The password is invalid."⟩)] = some s' ∧
      FailsCleanly guestInstall s' (some ⟨.wrongPassword, "The password is invalid."⟩) := by
  obtain ⟨s', hs'⟩ : ∃ s', guestInstall.flow
      (.signInBtn (some "alice@example.org") (some "secret")) 0
      [(none, some ⟨.wrongPassword, "The password is invalid."⟩)] = some s' := ⟨_, rfl⟩
  exact ⟨s', hs', (fails_cleanly_iff guestInstall_quiet (by simp) hs').mpr
    ⟨rfl, rfl, by simp⟩⟩

/-- **A failure can leave a trace**: the guest who registers is no longer one, although the
account has not been verified. -/
theorem not_fails_cleanly : ¬∀ (s s' : Install) (tap : Tap) (call : ℕ) (answers : List Answer),
    s.Quiet → tap ≠ .loginButton none → s.flow tap call answers = some s' →
    FailsCleanly s s' (tap.lastError answers) := by
  intro h
  obtain ⟨s', hs', hsession⟩ : ∃ s', guestInstall.flow
      (.registerBtn (some "Alice") (some "alice@example.org") (some "secret")) 0
      [(some { aliceAccount with isEmailVerified := false }, none), (none, unsentMail)] = some s' ∧
      s'.opened = [] ∧ s'.session.isAnonymous = false := ⟨_, rfl, rfl, rfl⟩
  have hclean := h _ _ _ _ _ guestInstall_quiet (by simp) hs'
  obtain ⟨hsame, -⟩ := hclean hsession.1
  have hguest : s'.session.isAnonymous = true := by rw [hsame]; rfl
  exact absurd (hguest.symm.trans hsession.2) (by decide)

end LandCap
