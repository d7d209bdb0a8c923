import LandCap.CapDatabase.Basic

/-!
# Signing in

`PageController` offers four ways into the app: signing in with an email address, registering,
Facebook, and skipping as a guest.  Each of them asks Firebase Auth, continues in a completion
handler, and opens Home from a block that the handler puts on the main queue.  What is kept between
these moments is `Session`, the four values in `UserDefaults`; nothing ties them to the account
that Firebase Auth considers current.

`Install` is one install of the app.  A flow is named by a number; `pending` holds what it waits
for, which is an answer of Firebase Auth, its turn to run the completion handler, or its turn to
run the block.  `Install.step` lets these happen in any order, so a flow may be overtaken by any
other one at each of these moments.

A handler is a pure function `complete` from the session and the answer to an `Effect`, which says
what the handler writes, which `setupUser` call it makes and what it leaves pending.  The last
section says which parts of the session each answer changes, and what it leaves pending.
-/

set_option autoImplicit false

namespace LandCap

open PathTree Runs

/-! ## Alerts -/

/-- A text on the screen: one of the app's labels, by its key, or a description made by Firebase. -/
inductive Text where
  | localized (key : String)
  | description (localizedDescription : String)
  deriving DecidableEq

structure Alert where
  title : Text
  message : Text
  deriving DecidableEq

/-- `AuthErrorCode`, as far as `handling` tells the codes apart. -/
inductive AuthErrorCode where
  | emailAlreadyInUse | invalidEmail | weakPassword | wrongPassword | internalError
  | other (rawValue : ℤ)
  deriving DecidableEq

structure AuthError where
  code : AuthErrorCode
  localizedDescription : String
  deriving DecidableEq

/-- The title `handling` gives to an error. -/
def AuthErrorCode.title : AuthErrorCode → Text
  | .emailAlreadyInUse | .invalidEmail => .localized "Email"
  | .weakPassword | .wrongPassword => .localized "Password"
  | .internalError => .localized "Internal Error"
  | .other _ => .localized "Oops"

/-- `PageController.handling`: the alerts it presents.  Every raw value is a case of the imported
enumeration `AuthErrorCode`. -/
def handling (error : Option AuthError) : List Alert :=
  (error.map fun error ↦
    { title := error.code.title, message := .description error.localizedDescription }).toList

/-! ## The session -/

/-- `User.session`: the values in `UserDefaults`. -/
structure Session where
  isSignedIn : Bool
  /-- The string under `"currentUserID"`, if one has been stored. -/
  storedUserID : Option UserID
  anonymousUserID : Option UserID
  isAnonymous : Bool
  deriving DecidableEq

/-- What `currentUserID` returns when nothing is stored. -/
def noUserID : UserID := ⟨"None", by decide, by decide⟩

/-- The getter of `currentUserID`. -/
def Session.currentUserID (s : Session) : UserID := s.storedUserID.getD noUserID

/-- The user `processHandler` opens the database for. -/
def Session.activeID (s : Session) : Option UserID :=
  if s.isAnonymous then s.anonymousUserID else some s.currentUserID

/-- The session of a fresh install. -/
def Session.fresh : Session where
  isSignedIn := false
  storedUserID := none
  anonymousUserID := none
  isAnonymous := false

/-! ## Flows -/

/-- An account of Firebase Auth. -/
structure AuthUser where
  uid : UserID
  displayName : Option String
  isEmailVerified : Bool
  isAnonymous : Bool
  deriving DecidableEq

inductive Flow where
  | signIn | register | facebook | skip
  deriving DecidableEq

/-- A `nextController` call that a flow makes, with the account it has authenticated.  The code
does not remember the account. -/
structure Opening where
  flow : Flow
  uid : Option UserID
  deriving DecidableEq

/-- What is asked of Firebase Auth.  A verification mail belongs to the account that has been
registered, which the code does not remember either. -/
inductive Request where
  | signIn (email password : String)
  | createUser (name email password : String)
  | sendEmailVerification (registered : Option UserID)
  | sendPasswordReset (email : String)
  | signInAnonymously
  | signInAndRetrieveData (token : String)
  deriving DecidableEq

/-- What a flow waits for. -/
inductive Pending where
  /-- Firebase Auth has been asked. -/
  | request (r : Request)
  /-- Firebase Auth has answered; the completion handler has not run. -/
  | completion (r : Request) (authResult : Option AuthUser) (error : Option AuthError)
  /-- The block that opens Home is on the main queue. -/
  | block (o : Opening)
  deriving DecidableEq

/-- What the user does on the login page. -/
inductive Tap where
  | signInBtn (email password : Option String)
  | registerBtn (name email password : Option String)
  /-- The default action of the alert of `forgotPasswordBtn`. -/
  | requestNewPassword (email : Option String)
  /-- The default action of the alert of `skipBtn`. -/
  | skipOkay
  /-- The end of a Facebook login, with the access token if one is active. -/
  | loginButton (token : Option String)

/-- What a tap leaves pending. -/
def Tap.start (session : Session) : Tap → Option Pending
  | .signInBtn email password => do return .request (.signIn (← email) (← password))
  | .registerBtn name email password => do
    return .request (.createUser (← name) (← email) (← password))
  | .requestNewPassword email => email.map fun email ↦ .request (.sendPasswordReset email)
  | .skipOkay =>
    if session.anonymousUserID = none then some (.request .signInAnonymously)
    else some (.block { flow := .skip, uid := none })
  | .loginButton token => token.map fun token ↦ .request (.signInAndRetrieveData token)

/-- What a completion handler does. -/
structure Effect where
  session : Session
  /-- The user a `setupUser` call is made for. -/
  setup : Option CapUser
  next : Option Pending
  alerts : List Alert
  trap : Bool

/-- A handler that changes nothing. -/
def Effect.skip (session : Session) : Effect :=
  { session := session, setup := none, next := none, alerts := [], trap := false }

/-- The completion handlers, with the session and `Auth.auth().currentUser` they find. -/
def complete (session : Session) (auth : Option AuthUser) :
    Request → Option AuthUser → Option AuthError → Effect
  | .signIn .., authResult, error =>
    if error ≠ none then { Effect.skip session with alerts := handling error }
    else match authResult with
      -- `(authResult?.user.isEmailVerified)!`
      | none => { Effect.skip session with trap := true }
      | some user =>
        if user.isEmailVerified then
          { Effect.skip session with
            session := { session with storedUserID := some user.uid, isAnonymous := false }
            next := some (.block { flow := .signIn, uid := some user.uid }) }
        else
          { Effect.skip session with
            alerts := [⟨.localized "Email Verification", .localized "Email Ver Message"⟩] }
  | .createUser name .., authResult, error =>
    if error = none then
      { session := match authResult with
          | some _ => { session with isAnonymous := false }
          | none => session
        setup := authResult.map fun user ↦ .setAuthorizedUser user.uid (some name)
        next := auth.map fun _ ↦
          .request (.sendEmailVerification (authResult.map AuthUser.uid))
        alerts := []
        trap := false }
    else { Effect.skip session with alerts := handling error }
  | .sendEmailVerification registered, _, error =>
    if error = none then
      match auth with
      -- `(Auth.auth().currentUser?.isEmailVerified)!`
      | none => { Effect.skip session with trap := true }
      | some user =>
        if user.isEmailVerified then
          { Effect.skip session with
            next := some (.block { flow := .register, uid := registered }) }
        else
          { Effect.skip session with
            alerts := [⟨.localized "Account Created", .localized "Email Ver Message"⟩] }
    else { Effect.skip session with alerts := handling error }
  | .sendPasswordReset _, _, error =>
    { Effect.skip session with
      alerts := handling error ++ [⟨.localized "Request Sent", .localized "Request Message"⟩] }
  | .signInAnonymously, authResult, error =>
    match authResult with
    | some user =>
      { Effect.skip session with
        session := { session with anonymousUserID := some user.uid }
        setup := some (.setAnonymousUser user.uid)
        next := some (.block { flow := .skip, uid := some user.uid }) }
    | none => { Effect.skip session with alerts := handling error }
  | .signInAndRetrieveData _, authResult, error =>
    if error = none then
      { session := match authResult with
          | some user => { session with storedUserID := some user.uid, isAnonymous := false }
          | none => session
        setup := authResult.map fun user ↦ .setAuthorizedUser user.uid user.displayName
        next := some (.block { flow := .facebook, uid := authResult.map AuthUser.uid })
        alerts := []
        trap := false }
    else { Effect.skip session with alerts := handling error }

/-- The session after the block that opens Home. -/
def Opening.enter (session : Session) (o : Opening) : Session :=
  { session with
    isSignedIn := true
    isAnonymous := if o.flow = .skip then true else session.isAnonymous }

/-! ## One install -/

structure Install where
  session : Session
  /-- `Auth.auth().currentUser`. -/
  auth : Option AuthUser
  pending : ℕ → Option Pending
  /-- The alerts presented so far. -/
  alerts : List Alert
  /-- The `nextController` calls so far, the latest first. -/
  opened : List Opening
  /-- A forced unwrap has failed and the app has stopped. -/
  trapped : Bool
  cloud : Cloud

/-- What can happen next. -/
inductive Event where
  /-- The user starts the flow `id`. -/
  | tap (id : ℕ) (t : Tap)
  /-- Firebase Auth answers the flow `id`. -/
  | respond (id : ℕ) (authResult : Option AuthUser) (error : Option AuthError)
  /-- The main queue runs the completion handler or the block of the flow `id`; a `setupUser` call
  the handler makes gets the name `call`. -/
  | deliver (id call : ℕ)
  /-- `handleMoreButton` on Home, or `handleSignOut` on the profile. -/
  | signOut
  /-- The app is started again. -/
  | relaunch
  /-- A step of the cloud: a call of this install or another device, or a step of such a call. -/
  | cloud (a : Action)

/-- The account that is current after an answer: a successful sign-in makes its account current. -/
def Request.authAfter (auth authResult : Option AuthUser) (error : Option AuthError) :
    Request → Option AuthUser
  | .sendEmailVerification _ | .sendPasswordReset _ => auth
  | _ => if error = none then authResult.or auth else auth

/-- The cloud after the `setupUser` call of a handler, if it makes one. -/
def Effect.provision (e : Effect) (call : ℕ) (cloud : Cloud) : Option Cloud :=
  match e.setup with
  | some user => cloud.step (.call call (.setupUser user))
  | none => some cloud

/-- The install after a handler of the flow `id`. -/
def Install.apply (s : Install) (id call : ℕ) (e : Effect) : Option Install :=
  (e.provision call s.cloud).map fun cloud ↦
    { s with
      session := e.session
      pending := Function.update s.pending id e.next
      alerts := s.alerts ++ e.alerts
      trapped := e.trap
      cloud := cloud }

/-- The install after the block of the flow `id`: it sets the session and calls `nextController`. -/
def Install.enter (s : Install) (id : ℕ) (o : Opening) : Install :=
  { s with
    session := o.enter s.session
    pending := Function.update s.pending id none
    opened := o :: s.opened }

/-- The main queue runs what the flow `id` waits for. -/
def Install.deliver (s : Install) (id call : ℕ) : Option Install :=
  match s.pending id with
  | some (.completion r authResult error) =>
    s.apply id call (complete s.session s.auth r authResult error)
  | some (.block o) => some (s.enter id o)
  | _ => none

/-- Firebase Auth answers the flow `id`. -/
def Install.respond (s : Install) (id : ℕ) (authResult : Option AuthUser)
    (error : Option AuthError) : Option Install :=
  match s.pending id with
  | some (.request r) =>
    some { s with
      auth := r.authAfter s.auth authResult error
      pending := Function.update s.pending id (some (.completion r authResult error)) }
  | _ => none

/-- The transitions of an install.  After a trap only the cloud goes on, until the app is started
again. -/
def Install.step (s : Install) : Event → Option Install
  | .tap id t =>
    if s.trapped ∨ s.pending id ≠ none then none
    else some { s with pending := Function.update s.pending id (t.start s.session) }
  | .respond id authResult error => if s.trapped then none else s.respond id authResult error
  | .deliver id call => if s.trapped then none else s.deliver id call
  | .signOut =>
    if s.trapped then none else some { s with session := { s.session with isSignedIn := false } }
  | .relaunch => some { s with pending := fun _ ↦ none, trapped := false }
  | .cloud a => (s.cloud.step a).map fun cloud ↦ { s with cloud := cloud }

/-- A fresh install next to a cloud. -/
def Install.fresh (cloud : Cloud) : Install where
  session := .fresh
  auth := none
  pending := fun _ ↦ none
  alerts := []
  opened := []
  trapped := false
  cloud := cloud

/-- The account of `alice`, for the examples. -/
def aliceAccount : AuthUser where
  uid := alice
  displayName := some "Alice"
  isEmailVerified := true
  isAnonymous := false

/-- The account of a guest, for the examples. -/
def guestAccount : AuthUser where
  uid := guest
  displayName := none
  isEmailVerified := false
  isAnonymous := true

/-! ## What an event does -/

/-- The ways an install goes on: an event, and the install after it. -/
inductive Install.Step (s : Install) : Event → Install → Prop
  | tap (id : ℕ) (t : Tap) (hfree : s.pending id = none) :
      s.Step (.tap id t) { s with pending := Function.update s.pending id (t.start s.session) }
  | respond (id : ℕ) (authResult : Option AuthUser) (error : Option AuthError) (r : Request)
      (hr : s.pending id = some (.request r)) :
      s.Step (.respond id authResult error) { s with
        auth := r.authAfter s.auth authResult error
        pending := Function.update s.pending id (some (.completion r authResult error)) }
  | handle (id call : ℕ) (r : Request) (authResult : Option AuthUser) (error : Option AuthError)
      (s' : Install) (hr : s.pending id = some (.completion r authResult error))
      (ha : s.apply id call (complete s.session s.auth r authResult error) = some s') :
      s.Step (.deliver id call) s'
  | enter (id call : ℕ) (o : Opening) (ho : s.pending id = some (.block o)) :
      s.Step (.deliver id call) (s.enter id o)
  | signOut : s.Step .signOut { s with session := { s.session with isSignedIn := false } }
  | relaunch : s.Step .relaunch { s with pending := fun _ ↦ none, trapped := false }
  | cloud (a : Action) (cloud : Cloud) (hc : s.cloud.step a = some cloud) :
      s.Step (.cloud a) { s with cloud := cloud }

/-- **An install goes on in one of these ways** whenever it goes on. -/
theorem Install.stepped {s s' : Install} {e : Event} (h : s.step e = some s') : s.Step e s' := by
  cases e with
  | tap id t =>
    rw [Install.step] at h
    split at h
    · exact absurd h (by simp)
    · rename_i hfree
      exact Option.some.inj h ▸ .tap id t (not_not.mp (not_or.mp hfree).2)
  | respond id authResult error =>
    rw [Install.step] at h
    split at h
    · exact absurd h (by simp)
    · rw [Install.respond] at h
      split at h
      · rename_i r hr
        exact Option.some.inj h ▸ .respond id authResult error r hr
      · exact absurd h (by simp)
  | deliver id call =>
    rw [Install.step] at h
    split at h
    · exact absurd h (by simp)
    · rw [Install.deliver] at h
      split at h
      · rename_i r authResult error hr
        exact .handle id call r authResult error s' hr h
      · rename_i o ho
        exact Option.some.inj h ▸ .enter id call o ho
      · exact absurd h (by simp)
  | signOut =>
    rw [Install.step] at h
    split at h
    · exact absurd h (by simp)
    · exact Option.some.inj h ▸ .signOut
  | relaunch => exact Option.some.inj h ▸ .relaunch
  | cloud a =>
    obtain ⟨cloud, hc, rfl⟩ := Option.map_eq_some_iff.mp h
    exact .cloud a cloud hc

/-- **What an event does** to the session, the openings and the cloud. -/
theorem Install.step_cases {s s' : Install} {e : Event} (h : s.step e = some s') :
    (∃ id call r authResult error, e = .deliver id call ∧
      s.pending id = some (.completion r authResult error) ∧
      s.apply id call (complete s.session s.auth r authResult error) = some s') ∨
    (∃ id call o, e = .deliver id call ∧ s.pending id = some (.block o) ∧ s' = s.enter id o) ∨
    (e = .signOut ∧ s' = { s with session := { s.session with isSignedIn := false } }) ∨
    (∃ a, e = .cloud a ∧ s.cloud.step a = some s'.cloud ∧ s'.session = s.session ∧
      s'.opened = s.opened) ∨
    ((∀ id call, e ≠ .deliver id call) ∧ s'.session = s.session ∧ s'.opened = s.opened ∧
      s'.cloud = s.cloud) := by
  cases Install.stepped h with
  | handle id call r authResult error _ hr ha =>
    exact Or.inl ⟨id, call, r, authResult, error, rfl, hr, ha⟩
  | enter id call o ho => exact Or.inr (Or.inl ⟨id, call, o, rfl, ho, rfl⟩)
  | signOut => exact Or.inr (Or.inr (Or.inl ⟨rfl, rfl⟩))
  | cloud a cloud hc => exact Or.inr (Or.inr (Or.inr (Or.inl ⟨a, rfl, hc, rfl, rfl⟩)))
  | tap | respond | relaunch =>
    exact Or.inr (Or.inr (Or.inr (Or.inr ⟨by simp, rfl, rfl, rfl⟩)))

/-- **What a flow waits for** after an event: what it waited for before, or what the event has made
it wait for. -/
theorem Install.pending_step {s s' : Install} {e : Event} {j : ℕ} {p : Pending}
    (h : s.step e = some s') (hp : s'.pending j = some p) :
    s.pending j = some p ∨
    (∃ t, e = .tap j t ∧ s.pending j = none ∧ t.start s.session = some p) ∨
    (∃ r authResult error, e = .respond j authResult error ∧ s.pending j = some (.request r) ∧
      p = .completion r authResult error) ∨
    (∃ call r authResult error, e = .deliver j call ∧
      s.pending j = some (.completion r authResult error) ∧
      (complete s.session s.auth r authResult error).next = some p) := by
  cases Install.stepped h with
  | tap id t hfree =>
    rcases update_eq_some hp with ⟨rfl, hstart⟩ | ⟨-, hp⟩
    · exact Or.inr (Or.inl ⟨t, rfl, hfree, hstart⟩)
    · exact Or.inl hp
  | respond id authResult error r hr =>
    rcases update_eq_some hp with ⟨rfl, hnext⟩ | ⟨-, hp⟩
    · exact Or.inr (Or.inr (Or.inl ⟨r, authResult, error, rfl, hr, (Option.some.inj hnext).symm⟩))
    · exact Or.inl hp
  | handle id call r authResult error _ hr ha =>
    obtain ⟨cloud, -, rfl⟩ := Option.map_eq_some_iff.mp ha
    rcases update_eq_some hp with ⟨rfl, hnext⟩ | ⟨-, hp⟩
    · exact Or.inr (Or.inr (Or.inr ⟨call, r, authResult, error, rfl, hr, hnext⟩))
    · exact Or.inl hp
  | enter id call o ho =>
    exact Or.inl (update_eq_some_of_ne hp (by simp)).2
  | relaunch => exact absurd hp (by simp)
  | signOut | cloud => exact Or.inl hp

/-- The main queue runs the handler that is pending. -/
theorem Install.step_handle {s s' : Install} {id call : ℕ} {r : Request}
    {authResult : Option AuthUser} {error : Option AuthError}
    (h : s.step (.deliver id call) = some s')
    (hr : s.pending id = some (.completion r authResult error)) :
    s.apply id call (complete s.session s.auth r authResult error) = some s' := by
  cases Install.stepped h with
  | handle _ _ r' authResult' error' _ hr' ha =>
    obtain ⟨rfl, rfl, rfl⟩ := Pending.completion.inj (Option.some.inj (hr.symm.trans hr'))
    exact ha
  | enter _ _ o ho => exact absurd (hr.symm.trans ho) (by simp)

/-- A handler that runs leaves the database and the openings alone; its `setupUser` call has only
begun. -/
theorem Install.apply_eq_some {s s' : Install} {id call : ℕ} {e : Effect}
    (h : s.apply id call e = some s') : s'.session = e.session ∧ s'.opened = s.opened ∧
      s'.cloud.database = s.cloud.database ∧ s'.auth = s.auth := by
  obtain ⟨cloud, hc, rfl⟩ := Option.map_eq_some_iff.mp h
  refine ⟨rfl, rfl, ?_, rfl⟩
  rw [Effect.provision] at hc
  split at hc
  · obtain ⟨-, rfl⟩ := Cloud.step_call hc
    rfl
  · rw [← Option.some.inj hc]

/-- A handler and a block leave the current account alone. -/
theorem Install.auth_deliver {s s' : Install} {id call : ℕ}
    (hstep : s.step (.deliver id call) = some s') :
    s'.auth = s.auth := by
  cases Install.stepped hstep with
  | handle _ _ r authResult error _ hp ha => exact (Install.apply_eq_some ha).2.2.2
  | enter => rfl

/-! ## What an answer changes in the session, and leaves pending -/

/-- The id the completion handler stores as `currentUserID`. -/
def Request.storesID (authResult : Option AuthUser) (error : Option AuthError) :
    Request → Option UserID
  | .signIn .. => if error = none then (authResult.filter AuthUser.isEmailVerified).map AuthUser.uid
    else none
  | .signInAndRetrieveData _ => if error = none then authResult.map AuthUser.uid else none
  | _ => none

/-- The completion handler sets `isAnonymous` to false. -/
def Request.endsGuest (authResult : Option AuthUser) (error : Option AuthError) :
    Request → Bool
  | .signIn .. => error = none ∧ (authResult.filter AuthUser.isEmailVerified).isSome
  | .createUser .. | .signInAndRetrieveData _ => error = none ∧ authResult.isSome
  | _ => false

/-- The id the completion handler stores as `anonymousUserID`. -/
def Request.guestID (authResult : Option AuthUser) : Request → Option UserID
  | .signInAnonymously => authResult.map AuthUser.uid
  | _ => none

/-- **A handler writes the session in three places**: the two ids, and the end of being a guest. -/
theorem complete_session (session : Session) (auth : Option AuthUser) (r : Request)
    (authResult : Option AuthUser) (error : Option AuthError) :
    (complete session auth r authResult error).session =
      { session with
        storedUserID := (r.storesID authResult error).or session.storedUserID
        anonymousUserID := (r.guestID authResult).or session.anonymousUserID
        isAnonymous := session.isAnonymous && !r.endsGuest authResult error } := by
  cases r with
  | signIn email password =>
    rcases error with - | error <;> rcases authResult with - | user
    case none.some =>
      cases hv : user.isEmailVerified <;>
        simp [complete, Effect.skip, Request.storesID, Request.guestID, Request.endsGuest, hv,
          Option.filter]
    all_goals simp [complete, Effect.skip, Request.storesID, Request.guestID, Request.endsGuest]
  | sendEmailVerification registered =>
    rcases error with - | error <;> rcases auth with - | user
    case none.some =>
      cases hv : user.isEmailVerified <;>
        simp [complete, Effect.skip, Request.storesID, Request.guestID, Request.endsGuest, hv]
    all_goals simp [complete, Effect.skip, Request.storesID, Request.guestID, Request.endsGuest]
  | createUser | signInAndRetrieveData =>
    rcases error with - | error <;> rcases authResult with - | user <;>
      simp [complete, Effect.skip, Request.storesID, Request.guestID, Request.endsGuest]
  | sendPasswordReset | signInAnonymously =>
    rcases authResult with - | user <;>
      simp [complete, Effect.skip, Request.storesID, Request.guestID, Request.endsGuest]

/-- A handler leaves a block pending, that of a skip only when it has stored a guest id, or the
request for a verification mail. -/
theorem next_complete {session : Session} {auth : Option AuthUser} {r : Request}
    {authResult : Option AuthUser} {error : Option AuthError} {p : Pending}
    (h : (complete session auth r authResult error).next = some p) :
    (∃ o, p = .block o ∧ (o.flow = .skip → (r.guestID authResult).isSome = true)) ∨
      ∃ registered, p = .request (.sendEmailVerification registered) := by
  cases r with
  | signIn email password =>
    rcases error with - | error <;> rcases authResult with - | user
    case none.some =>
      cases hv : user.isEmailVerified with
      | false => simp [complete, Effect.skip, hv] at h
      | true =>
        refine Or.inl ⟨{ flow := .signIn, uid := some user.uid }, ?_, fun ho ↦ nomatch ho⟩
        simpa [complete, Effect.skip, hv, eq_comm] using h
    all_goals simp [complete, Effect.skip] at h
  | sendEmailVerification registered =>
    rcases error with - | error <;> rcases auth with - | user
    case none.some =>
      cases hv : user.isEmailVerified with
      | false => simp [complete, Effect.skip, hv] at h
      | true =>
        refine Or.inl ⟨{ flow := .register, uid := registered }, ?_, fun ho ↦ nomatch ho⟩
        simpa [complete, Effect.skip, hv, eq_comm] using h
    all_goals simp [complete, Effect.skip] at h
  | createUser name email password =>
    rcases error with - | error <;> rcases auth with - | user
    case none.some =>
      refine Or.inr ⟨authResult.map AuthUser.uid, ?_⟩
      simpa [complete, eq_comm] using h
    all_goals simp [complete, Effect.skip] at h
  | signInAndRetrieveData token =>
    rcases error with - | error
    · refine Or.inl ⟨{ flow := .facebook, uid := authResult.map AuthUser.uid }, ?_,
        fun ho ↦ nomatch ho⟩
      simpa [complete, eq_comm] using h
    · simp [complete, Effect.skip] at h
  | sendPasswordReset email => simp [complete, Effect.skip] at h
  | signInAnonymously =>
    rcases authResult with - | user
    · simp [complete, Effect.skip] at h
    · refine Or.inl ⟨{ flow := .skip, uid := some user.uid }, ?_, fun _ ↦ rfl⟩
      simpa [complete, Effect.skip, eq_comm] using h

/-- Whoever stores an id ends being a guest. -/
theorem Request.endsGuest_of_storesID {r : Request} {authResult : Option AuthUser}
    {error : Option AuthError} {u : UserID} (h : r.storesID authResult error = some u) :
    r.endsGuest authResult error = true := by
  cases r <;> simp only [Request.storesID, reduceCtorEq] at h
  case signIn email password =>
    split at h
    · rename_i he
      obtain ⟨user, hu, -⟩ := Option.map_eq_some_iff.mp h
      rw [Request.endsGuest, hu]
      simp [he]
    · exact absurd h (by simp)
  case signInAndRetrieveData token =>
    split at h
    · rename_i he
      obtain ⟨user, rfl, -⟩ := Option.map_eq_some_iff.mp h
      simp [Request.endsGuest, he]
    · exact absurd h (by simp)

end LandCap
