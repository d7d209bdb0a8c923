import LandCap.Login.Basic

/-!
# One guest

`skipBtn` asks Firebase Auth for an anonymous account only if no guest id is stored, and stores the
id in the completion handler.  Between the two moments the check is out of date: a second skip may
pass it as well, and if another flow has changed the current account in the meantime, or the first
request has not been answered yet, Firebase makes a second guest, who gets a quota of his own.

`Guests` is an install with the account that was current when each flow was started, which is what
Firebase's answer to an anonymous sign-in depends on (`FirebaseAnswers`), and with the guests
`setupUser` has been called for.  A guest is known when anything at all remembers him, and
`OneGuest` says that at most one guest is, and that a request which will make a new one finds none
and is the only one.  A skip is careful if no anonymous sign-in is under way, or a guest is the
current user; in a run of careful skips there is one guest (`one_guest`).
-/

set_option autoImplicit false

namespace LandCap

open Runs

/-! ## Guests -/

/-- The id of a guest. -/
def guestOf (user : Option AuthUser) : Option UserID :=
  (user.filter AuthUser.isAnonymous).map AuthUser.uid

/-- The guest for whom the handler of the flow `id` calls `setupUser`. -/
def Install.provisions (s : Install) (id : ℕ) : Option UserID :=
  match s.pending id with
  | some (.completion r authResult error) =>
    ((complete s.session s.auth r authResult error).setup.filter CapUser.isAnonymous).map
      CapUser.Key
  | _ => none

structure Guests where
  install : Install
  /-- `Auth.auth().currentUser` when each flow was started. -/
  startedWith : ℕ → Option AuthUser
  /-- The accounts Firebase Auth has known. -/
  seen : List UserID
  /-- The guests `setupUser` has been called for. -/
  provisioned : List UserID

/-- What is recorded about an event of the install. -/
def Guests.after (s : Guests) (install : Install) : Event → Guests
  | .tap id _ =>
    { s with
      install := install
      startedWith := Function.update s.startedWith id s.install.auth }
  | .respond _ authResult _ =>
    { s with install := install, seen := s.seen ++ (authResult.map AuthUser.uid).toList }
  | .deliver id _ =>
    { s with
      install := install
      provisioned := s.provisioned ++ (s.install.provisions id).toList }
  | _ => { s with install := install }

def Guests.step (s : Guests) (e : Event) : Option Guests :=
  (s.install.step e).map fun install ↦ s.after install e

/-- A fresh install; Firebase Auth may remember an account. -/
def Guests.fresh (cloud : Cloud) (auth : Option AuthUser) : Guests where
  install := { Install.fresh cloud with auth := auth }
  startedWith := fun _ ↦ none
  seen := (auth.map AuthUser.uid).toList
  provisioned := []

/-- **What is assumed of Firebase Auth.**  An anonymous sign-in answers with the account that was
current at its start, if that is a guest's, and otherwise with a new guest.  The account of any
other flow is not a guest's. -/
def Guests.FirebaseAnswers (s : Guests) : Event → Prop
  | .respond id (some user) _ =>
    match s.install.pending id with
    | some (.request .signInAnonymously) =>
      user.isAnonymous = true ∧
        match guestOf (s.startedWith id) with
        | some uid => user.uid = uid
        | none => user.uid ∉ s.seen
    | _ => user.isAnonymous = false
  | _ => True

/-- An anonymous sign-in of the flow has not been answered, or its answer not been handled. -/
def Install.Asks (s : Install) (id : ℕ) : Prop :=
  s.pending id = some (.request .signInAnonymously) ∨
    ∃ user error, s.pending id = some (.completion .signInAnonymously (some user) error)

/-- A skip that has to sign in finds no other anonymous sign-in under way, or a guest as the
current user. -/
def Guests.Careful (s : Guests) : Event → Prop
  | .tap _ .skipOkay => s.install.session.anonymousUserID = none → (∃ j, s.install.Asks j) →
    guestOf s.install.auth ≠ none
  | _ => True

/-! ## The invariant -/

/-- Something remembers the guest. -/
def Guests.Knows (s : Guests) (u : UserID) : Prop :=
  u ∈ s.provisioned ∨ s.install.session.anonymousUserID = some u ∨
  guestOf s.install.auth = some u ∨
  (∃ id user error, s.install.pending id = some (.completion .signInAnonymously (some user) error) ∧
    user.uid = u) ∨
  ∃ id, s.install.pending id = some (.request .signInAnonymously) ∧
    guestOf (s.startedWith id) = some u

/-- At most one guest is known, and a request that will make a new one finds none. -/
structure Guests.OneGuest (s : Guests) : Prop where
  unique : ∀ u v, s.Knows u → s.Knows v → u = v
  stored : s.provisioned ≠ [] → s.install.session.anonymousUserID ≠ none
  fresh : ∀ id, s.install.pending id = some (.request .signInAnonymously) →
    guestOf (s.startedWith id) = none → (∀ u, ¬s.Knows u) ∧ ∀ j, s.install.Asks j → j = id

section Step

variable {s s' : Guests} {install : Install}

/-- A step after which no more is known, and no more is asked. -/
theorem Guests.OneGuest.of_subset (h : s.OneGuest) (hknows : ∀ u, s'.Knows u → s.Knows u)
    (hstored : s'.provisioned ≠ [] → s'.install.session.anonymousUserID ≠ none)
    (hrequest : ∀ id, s'.install.pending id = some (.request .signInAnonymously) →
      s.install.pending id = some (.request .signInAnonymously) ∧
        s'.startedWith id = s.startedWith id)
    (hasks : ∀ j, s'.install.Asks j → s.install.Asks j) : s'.OneGuest where
  unique u v hu hv := h.unique u v (hknows u hu) (hknows v hv)
  stored := hstored
  fresh id hid hguest := by
    obtain ⟨hold, hstarted⟩ := hrequest id hid
    obtain ⟨hnone, honly⟩ := h.fresh id hold (hstarted ▸ hguest)
    exact ⟨fun u hu ↦ hnone u (hknows u hu), fun j hj ↦ honly j (hasks j hj)⟩

/-- Where each thing that is known after a step has been known before. -/
theorem Guests.OneGuest.of_sources (h : s.OneGuest)
    (hprovisioned : ∀ u ∈ s'.provisioned, s.Knows u)
    (hid : ∀ u, s'.install.session.anonymousUserID = some u → s.Knows u)
    (hauth : ∀ u, guestOf s'.install.auth = some u → s.Knows u)
    (hcompletion : ∀ j user error,
      s'.install.pending j = some (.completion .signInAnonymously (some user) error) →
        s.Knows user.uid ∧ s.install.Asks j)
    (hrequest : ∀ j, s'.install.pending j = some (.request .signInAnonymously) →
      s.install.pending j = some (.request .signInAnonymously) ∧
        s'.startedWith j = s.startedWith j)
    (hstored : s'.provisioned ≠ [] → s'.install.session.anonymousUserID ≠ none) :
    s'.OneGuest := by
  refine h.of_subset ?_ hstored hrequest ?_
  · rintro u (hu | hu | hu | ⟨j, user, error, hj, rfl⟩ | ⟨j, hj, hu⟩)
    · exact hprovisioned u hu
    · exact hid u hu
    · exact hauth u hu
    · exact (hcompletion j user error hj).1
    · obtain ⟨hold, hstarted⟩ := hrequest j hj
      exact Or.inr (Or.inr (Or.inr (Or.inr ⟨j, hold, hstarted ▸ hu⟩)))
  · rintro j (hj | ⟨user, error, hj⟩)
    · exact Or.inl (hrequest j hj).1
    · exact (hcompletion j user error hj).2

/-- Only a skip without a stored id asks for an anonymous account. -/
theorem start_anonymously {session : Session} {t : Tap}
    (h : t.start session = some (.request .signInAnonymously)) :
    t = .skipOkay ∧ session.anonymousUserID = none := by
  cases t with
  | signInBtn email password => cases email <;> cases password <;> simp [Tap.start] at h
  | registerBtn name email password =>
    cases name <;> cases email <;> cases password <;> simp [Tap.start] at h
  | requestNewPassword email => cases email <;> simp [Tap.start] at h
  | loginButton token => cases token <;> simp [Tap.start] at h
  | skipOkay =>
    rw [Tap.start] at h
    split at h
    · exact ⟨rfl, ‹_›⟩
    · exact absurd h (by simp)

theorem start_ne_completion (session : Session) (t : Tap) (r : Request)
    (authResult : Option AuthUser) (error : Option AuthError) :
    t.start session ≠ some (.completion r authResult error) := by
  cases t with
  | signInBtn email password => cases email <;> cases password <;> simp [Tap.start]
  | registerBtn name email password =>
    cases name <;> cases email <;> cases password <;> simp [Tap.start]
  | requestNewPassword email => cases email <;> simp [Tap.start]
  | loginButton token => cases token <;> simp [Tap.start]
  | skipOkay => rw [Tap.start]; split <;> simp

/-- A tap tells nothing new. -/
theorem knows_tap {id : ℕ} {t : Tap} {u : UserID}
    (hstep : s.install.step (.tap id t) = some install)
    (hu : (s.after install (.tap id t)).Knows u) : s.Knows u := by
  cases Install.stepped hstep
  rcases hu with hu | hu | hu | ⟨j, user, error, hj, hu⟩ | ⟨j, hj, hu⟩
  · exact Or.inl hu
  · exact Or.inr (Or.inl hu)
  · exact Or.inr (Or.inr (Or.inl hu))
  · have hold := (update_eq_some_of_ne hj (start_ne_completion _ _ _ _ _)).2
    exact Or.inr (Or.inr (Or.inr (Or.inl ⟨j, user, error, hold, hu⟩)))
  · have hstarted : guestOf (Function.update s.startedWith id s.install.auth j) = some u := hu
    rcases update_eq_some hj with ⟨rfl, -⟩ | ⟨hne, hj⟩
    · rw [Function.update_self] at hstarted
      exact Or.inr (Or.inr (Or.inl hstarted))
    · rw [Function.update_of_ne hne] at hstarted
      exact Or.inr (Or.inr (Or.inr (Or.inr ⟨j, hj, hstarted⟩)))

/-- Who asks after a tap did so before, or has been made to by it. -/
theorem asks_tap {id j : ℕ} {t : Tap} (hstep : s.install.step (.tap id t) = some install)
    (hj : install.Asks j) :
    s.install.Asks j ∨ j = id ∧ t.start s.install.session = some (.request .signInAnonymously) := by
  cases Install.stepped hstep
  rcases hj with hj | ⟨user, error, hj⟩
  · rcases update_eq_some hj with ⟨rfl, hstart⟩ | ⟨-, hj⟩
    · exact Or.inr ⟨rfl, hstart⟩
    · exact Or.inl (Or.inl hj)
  · have hold := (update_eq_some_of_ne hj (start_ne_completion _ _ _ _ _)).2
    exact Or.inl (Or.inr ⟨user, error, hold⟩)

/-- Where no id is stored, no guest is current and nobody asks, no guest is known. -/
theorem Guests.OneGuest.not_knows (h : s.OneGuest)
    (hstored : s.install.session.anonymousUserID = none) (hauth : guestOf s.install.auth = none)
    (hnone : ∀ j, ¬s.install.Asks j) (u : UserID) : ¬s.Knows u := by
  rintro (hu | hu | hu | ⟨j, user, error, hj, -⟩ | ⟨j, hj, -⟩)
  · exact h.stored (List.ne_nil_of_mem hu) hstored
  · exact absurd (hstored.symm.trans hu) (by simp)
  · exact absurd (hauth.symm.trans hu) (by simp)
  · exact hnone j (Or.inr ⟨user, error, hj⟩)
  · exact hnone j (Or.inl hj)

/-- **A careful skip** either asks for the guest who is the current user, or finds none. -/
theorem oneGuest_tap {id : ℕ} {t : Tap} (h : s.OneGuest) (hc : s.Careful (.tap id t))
    (hstep : s.install.step (.tap id t) = some install) :
    (s.after install (.tap id t)).OneGuest := by
  set s' := s.after install (.tap id t) with hs'
  have hknows : ∀ u, s'.Knows u → s.Knows u := fun u hu ↦ knows_tap hstep hu
  have hasks : ∀ j, s'.install.Asks j → s.install.Asks j ∨
      j = id ∧ t.start s.install.session = some (.request .signInAnonymously) := fun j hj ↦
    asks_tap hstep hj
  have hself : s'.startedWith id = s.install.auth := Function.update_self _ _ _
  have hstarted : ∀ j, j ≠ id → s'.startedWith j = s.startedWith j := fun j hne ↦
    Function.update_of_ne hne _ _
  cases Install.stepped hstep
  by_cases hstart : t.start s.install.session = some (.request .signInAnonymously)
  · obtain ⟨rfl, hstored⟩ := start_anonymously hstart
    refine ⟨fun u v hu hv ↦ h.unique u v (hknows u hu) (hknows v hv), h.stored, ?_⟩
    intro i hi hguest
    cases hauth : guestOf s.install.auth with
    | some uid =>
      -- the guest who is current is known, so nobody asks for a new one
      have huid : s.Knows uid := Or.inr (Or.inr (Or.inl hauth))
      rcases update_eq_some hi with ⟨rfl, -⟩ | ⟨hne, hi⟩
      · rw [hself, hauth] at hguest
        exact absurd hguest (by simp)
      · rw [hstarted i hne] at hguest
        exact absurd huid ((h.fresh i hi hguest).1 uid)
    | none =>
      have hnone : ∀ j, ¬s.install.Asks j := fun j hj ↦ hc hstored ⟨j, hj⟩ hauth
      refine ⟨fun u hu ↦ h.not_knows hstored hauth hnone u (hknows u hu), fun j hj ↦ ?_⟩
      obtain rfl : i = id := ((hasks i (Or.inl hi)).resolve_left (hnone i)).1
      exact ((hasks j hj).resolve_left (hnone j)).1
  · refine h.of_subset hknows h.stored (fun j hj ↦ ?_) fun j hj ↦
      (hasks j hj).resolve_right fun hnew ↦ hstart hnew.2
    obtain ⟨hne, hold⟩ := update_eq_some_of_ne hj hstart
    exact ⟨hold, hstarted j hne⟩

/-- An answer makes a guest current only if it is to an anonymous sign-in. -/
theorem guestOf_authAfter {r : Request} {auth authResult : Option AuthUser}
    {error : Option AuthError} {u : UserID}
    (hother : r ≠ .signInAnonymously → ∀ user, authResult = some user → user.isAnonymous = false)
    (h : guestOf (r.authAfter auth authResult error) = some u) :
    guestOf auth = some u ∨
      r = .signInAnonymously ∧ ∃ user, authResult = some user ∧ user.uid = u := by
  rcases authResult with - | user
  · refine Or.inl ?_
    cases r <;> simpa [Request.authAfter] using h
  by_cases hr : r = .signInAnonymously
  · subst hr
    simp only [Request.authAfter] at h
    split at h
    · obtain ⟨user', huser', hu⟩ := Option.map_eq_some_iff.mp h
      obtain ⟨hsome, -⟩ := Option.filter_eq_some_iff.mp huser'
      obtain rfl : user = user' := by simpa using hsome
      exact Or.inr ⟨rfl, user, rfl, hu⟩
    · exact Or.inl h
  · have hguest := hother hr user rfl
    refine Or.inl ?_
    cases r <;> simp only [Request.authAfter, Option.some_or] at h
    case sendEmailVerification | sendPasswordReset => exact h
    all_goals
      split at h
      · exact absurd h (by simp [guestOf, Option.filter, hguest])
      · exact h

theorem isAnonymous_of_other {id : ℕ} {r : Request} {user : AuthUser} {error : Option AuthError}
    (hf : s.FirebaseAnswers (.respond id (some user) error))
    (hr : s.install.pending id = some (.request r)) (hne : r ≠ .signInAnonymously) :
    user.isAnonymous = false := by
  simp only [Guests.FirebaseAnswers, hr] at hf
  cases r with
  | signInAnonymously => exact absurd rfl hne
  | _ => exact hf

theorem uid_of_anonymous {id : ℕ} {user : AuthUser} {error : Option AuthError} {uid : UserID}
    (hf : s.FirebaseAnswers (.respond id (some user) error))
    (hr : s.install.pending id = some (.request .signInAnonymously))
    (hguest : guestOf (s.startedWith id) = some uid) : user.uid = uid := by
  simp only [Guests.FirebaseAnswers, hr, hguest] at hf
  exact hf.2

/-- An answer makes nobody ask. -/
theorem asks_respond {id j : ℕ} {authResult : Option AuthUser} {error : Option AuthError}
    (hstep : s.install.step (.respond id authResult error) = some install)
    (hj : install.Asks j) : s.install.Asks j := by
  cases Install.stepped hstep
  rename_i r hr
  rcases hj with hj | ⟨user, e, hj⟩
  · exact Or.inl (update_eq_some_of_ne hj (by simp)).2
  · rcases update_eq_some hj with ⟨rfl, hnew⟩ | ⟨-, hj⟩
    · obtain ⟨rfl, -, -⟩ : r = .signInAnonymously ∧ authResult = some user ∧ error = e := by
        simpa using hnew
      exact Or.inl hr
    · exact Or.inr ⟨user, e, hj⟩

/-- What is known after an answer is known before, or is the guest of the answer. -/
theorem knows_respond {id : ℕ} {authResult : Option AuthUser} {error : Option AuthError}
    {u : UserID} (hf : s.FirebaseAnswers (.respond id authResult error))
    (hstep : s.install.step (.respond id authResult error) = some install)
    (hu : (s.after install (.respond id authResult error)).Knows u) :
    s.Knows u ∨ s.install.pending id = some (.request .signInAnonymously) ∧
      ∃ user, authResult = some user ∧ user.uid = u := by
  cases Install.stepped hstep
  rename_i r hr
  have hother : r ≠ .signInAnonymously → ∀ user, authResult = some user →
      user.isAnonymous = false := by
    rintro hne user rfl
    exact isAnonymous_of_other hf hr hne
  rcases hu with hu | hu | hu | ⟨j, user, e, hj, hu⟩ | ⟨j, hj, hu⟩
  · exact Or.inl (Or.inl hu)
  · exact Or.inl (Or.inr (Or.inl hu))
  · rcases guestOf_authAfter hother hu with hold | ⟨rfl, hnew⟩
    · exact Or.inl (Or.inr (Or.inr (Or.inl hold)))
    · exact Or.inr ⟨hr, hnew⟩
  · rcases update_eq_some hj with ⟨rfl, hnew⟩ | ⟨-, hj⟩
    · obtain ⟨rfl, hsome, -⟩ : r = .signInAnonymously ∧ authResult = some user ∧ error = e := by
        simpa using hnew
      exact Or.inr ⟨hr, user, hsome, hu⟩
    · exact Or.inl (Or.inr (Or.inr (Or.inr (Or.inl ⟨j, user, e, hj, hu⟩))))
  · have hold := (update_eq_some_of_ne hj (by simp)).2
    exact Or.inl (Or.inr (Or.inr (Or.inr (Or.inr ⟨j, hold, hu⟩))))

/-- **An answer of Firebase** tells nothing new, unless it is to a request for a new guest. -/
theorem oneGuest_respond {id : ℕ} {authResult : Option AuthUser} {error : Option AuthError}
    (h : s.OneGuest) (hf : s.FirebaseAnswers (.respond id authResult error))
    (hstep : s.install.step (.respond id authResult error) = some install) :
    (s.after install (.respond id authResult error)).OneGuest := by
  set s' := s.after install (.respond id authResult error) with hs'
  have hknows : ∀ u, s'.Knows u → s.Knows u ∨
      s.install.pending id = some (.request .signInAnonymously) ∧
        ∃ user, authResult = some user ∧ user.uid = u := fun u hu ↦ knows_respond hf hstep hu
  have hasks : ∀ j, s'.install.Asks j → s.install.Asks j := fun j hj ↦ asks_respond hstep hj
  cases Install.stepped hstep
  have hrequest : ∀ j, s'.install.pending j = some (.request .signInAnonymously) →
      j ≠ id ∧ s.install.pending j = some (.request .signInAnonymously) := fun j hj ↦
    update_eq_some_of_ne hj (by simp)
  by_cases hnew : s.install.pending id = some (.request .signInAnonymously) ∧
      guestOf (s.startedWith id) = none
  · obtain ⟨hr, hguest⟩ := hnew
    obtain ⟨hnone, honly⟩ := h.fresh id hr hguest
    have huid : ∀ u, s'.Knows u → ∃ user, authResult = some user ∧ user.uid = u := fun u hu ↦
      ((hknows u hu).resolve_left (hnone u)).2
    refine ⟨fun u v hu hv ↦ ?_, h.stored, fun j hj _ ↦ ?_⟩
    · obtain ⟨user, hsome, rfl⟩ := huid u hu
      obtain ⟨user', hsome', rfl⟩ := huid v hv
      obtain rfl : user = user' := Option.some.inj (hsome.symm.trans hsome')
      rfl
    · obtain ⟨hne, hold⟩ := hrequest j hj
      exact absurd (honly j (Or.inl hold)) hne
  · refine h.of_subset (fun u hu ↦ ?_) h.stored (fun j hj ↦ ⟨(hrequest j hj).2, rfl⟩) hasks
    rcases hknows u hu with hold | ⟨hr, user, rfl, rfl⟩
    · exact hold
    · -- the guest who was current when the flow was started
      obtain ⟨uid, hguest⟩ := Option.ne_none_iff_exists'.mp fun hnone ↦ hnew ⟨hr, hnone⟩
      rw [uid_of_anonymous hf hr hguest]
      exact Or.inr (Or.inr (Or.inr (Or.inr ⟨id, hr, hguest⟩)))

/-- A handler calls `setupUser` for a guest exactly if it stores a guest id. -/
theorem guest_complete (session : Session) (auth : Option AuthUser) (r : Request)
    (authResult : Option AuthUser) (error : Option AuthError) :
    ((complete session auth r authResult error).setup.filter CapUser.isAnonymous).map CapUser.Key
      = r.guestID authResult := by
  cases r with
  | signIn email password =>
    rcases error with - | error <;> rcases authResult with - | user
    case none.some =>
      cases hv : user.isEmailVerified <;> simp [complete, Effect.skip, Request.guestID, hv]
    all_goals simp [complete, Effect.skip, Request.guestID]
  | sendEmailVerification registered =>
    rcases error with - | error <;> rcases auth with - | user
    case none.some =>
      cases hv : user.isEmailVerified <;> simp [complete, Effect.skip, Request.guestID, hv]
    all_goals simp [complete, Effect.skip, Request.guestID]
  | createUser | signInAndRetrieveData =>
    rcases error with - | error <;> rcases authResult with - | user <;>
      simp [complete, Effect.skip, Request.guestID, CapUser.setAuthorizedUser, Option.filter]
  | sendPasswordReset | signInAnonymously =>
    rcases authResult with - | user <;>
      simp [complete, Effect.skip, Request.guestID, CapUser.setAnonymousUser, Option.filter]

/-- The guest whose id a handler stores is known from its answer. -/
theorem knows_of_guestID {id : ℕ} {r : Request} {authResult : Option AuthUser}
    {error : Option AuthError} {u : UserID}
    (hp : s.install.pending id = some (.completion r authResult error))
    (hu : r.guestID authResult = some u) : s.Knows u := by
  cases r <;> simp only [Request.guestID, reduceCtorEq] at hu
  obtain ⟨user, rfl, huid⟩ := Option.map_eq_some_iff.mp hu
  exact Or.inr (Or.inr (Or.inr (Or.inl ⟨id, user, error, hp, huid⟩)))

/-- **What a handler or a block stores and provisions** is known before, and a guest is stored once
one is provisioned. -/
theorem session_deliver {id call : ℕ} (hstep : s.install.step (.deliver id call) = some install) :
    (∀ u, install.session.anonymousUserID = some u → s.Knows u) ∧
    (∀ u, s.install.provisions id = some u → s.Knows u) ∧
    (s.install.session.anonymousUserID ≠ none ∨ s.install.provisions id ≠ none →
      install.session.anonymousUserID ≠ none) := by
  cases Install.stepped hstep with
  | handle _ _ r authResult error _ hp ha =>
    have hguest : s.install.provisions id = r.guestID authResult := by
      simp only [Install.provisions, hp, guest_complete]
    rw [(Install.apply_eq_some ha).1, complete_session, hguest]
    refine ⟨fun u hu ↦ ?_, fun u hu ↦ knows_of_guestID hp hu, fun hor hnone ↦ ?_⟩
    · rcases Option.or_eq_some_iff.mp hu with hu | ⟨-, hu⟩
      · exact knows_of_guestID hp hu
      · exact Or.inr (Or.inl hu)
    · obtain ⟨hguestID, hold⟩ := Option.or_eq_none_iff.mp hnone
      exact hor.elim (fun h ↦ h hold) fun h ↦ h hguestID
  | enter _ _ o hp =>
    have hnone : s.install.provisions id = none := by simp only [Install.provisions, hp]
    rw [hnone]
    exact ⟨fun u hu ↦ Or.inr (Or.inl hu), by simp, fun hor ↦ hor.resolve_right (by simp)⟩

/-- **A handler or a block** tells nothing new. -/
theorem oneGuest_deliver {id call : ℕ} (h : s.OneGuest)
    (hstep : s.install.step (.deliver id call) = some install) :
    (s.after install (.deliver id call)).OneGuest := by
  -- what is pending afterwards was pending before, or is of no interest
  have hpending : ∀ j p, install.pending j = some p → s.install.pending j = some p ∨
      (∃ o, p = .block o) ∨ ∃ registered, p = .request (.sendEmailVerification registered) := by
    intro j p hp
    rcases Install.pending_step hstep hp with hold | ⟨t, he, -⟩ | ⟨_, _, _, he, -⟩ |
      ⟨_, _, _, _, -, -, hnext⟩
    · exact Or.inl hold
    · exact absurd he (by simp)
    · exact absurd he (by simp)
    · exact Or.inr ((next_complete hnext).imp_left fun ⟨o, ho, _⟩ ↦ ⟨o, ho⟩)
  have hrequest : ∀ j, install.pending j = some (.request .signInAnonymously) →
      s.install.pending j = some (.request .signInAnonymously) := fun j hj ↦
    (hpending j _ hj).resolve_right (by simp)
  have hcompletion : ∀ j user error,
      install.pending j = some (.completion .signInAnonymously (some user) error) →
      s.Knows user.uid ∧ s.install.Asks j := by
    intro j user error hj
    have hold := (hpending j _ hj).resolve_right (by simp)
    exact ⟨Or.inr (Or.inr (Or.inr (Or.inl ⟨j, user, error, hold, rfl⟩))),
      Or.inr ⟨user, error, hold⟩⟩
  have hauth : ∀ u, guestOf install.auth = some u → s.Knows u := fun u hu ↦
    Or.inr (Or.inr (Or.inl (Install.auth_deliver hstep ▸ hu)))
  obtain ⟨hstored, hprovisioned, hboth⟩ := session_deliver hstep
  refine h.of_sources (fun u hu ↦ ?_) hstored hauth hcompletion
    (fun j hj ↦ ⟨hrequest j hj, rfl⟩) fun hne ↦ hboth ?_
  · rcases List.mem_append.mp hu with hu | hu
    · exact Or.inl hu
    · exact hprovisioned u (Option.mem_toList.mp hu)
  · rcases not_and_or.mp (mt List.append_eq_nil_iff.mpr hne) with hold | hnew
    · exact Or.inl (h.stored hold)
    · exact Or.inr fun hnone ↦ hnew (by rw [hnone]; rfl)

/-- **The invariant is kept** by every step that is careful, while Firebase answers as it does. -/
theorem oneGuest_step {e : Event} (h : s.OneGuest) (hf : s.FirebaseAnswers e) (hc : s.Careful e)
    (hstep : s.step e = some s') : s'.OneGuest := by
  obtain ⟨install, hi, rfl⟩ := Option.map_eq_some_iff.mp hstep
  cases e with
  | tap id t => exact oneGuest_tap h hc hi
  | respond id authResult error => exact oneGuest_respond h hf hi
  | deliver id call => exact oneGuest_deliver h hi
  | signOut =>
    cases Install.stepped hi
    exact h.of_subset (fun _ hu ↦ hu) h.stored (fun _ hj ↦ ⟨hj, rfl⟩) fun _ hj ↦ hj
  | relaunch =>
    obtain rfl := Option.some.inj hi
    exact h.of_sources (fun _ hu ↦ Or.inl hu) (fun _ hu ↦ Or.inr (Or.inl hu))
      (fun _ hu ↦ Or.inr (Or.inr (Or.inl hu)))
      (fun _ _ _ hj ↦ absurd hj.symm (Option.some_ne_none _))
      (fun _ hj ↦ absurd hj.symm (Option.some_ne_none _)) h.stored
  | cloud a =>
    obtain ⟨cloud, -, rfl⟩ := Option.map_eq_some_iff.mp hi
    exact h.of_subset (fun _ hu ↦ hu) h.stored (fun _ hj ↦ ⟨hj, rfl⟩) fun _ hj ↦ hj

/-- **A stored id stays.** -/
theorem stored_step {e : Event} {u : UserID} (h : s.OneGuest) (hstep : s.step e = some s')
    (hu : s.install.session.anonymousUserID = some u) :
    s'.install.session.anonymousUserID = some u := by
  obtain ⟨install, hi, rfl⟩ := Option.map_eq_some_iff.mp hstep
  have hsame : (s.after install e).install = install := by cases e <;> rfl
  rw [hsame]
  rcases Install.step_cases hi with ⟨id, call, r, authResult, error, -, hp, ha⟩ |
    ⟨id, call, o, -, -, rfl⟩ | ⟨-, rfl⟩ | ⟨a, -, -, hs, -⟩ | ⟨-, hs, -, -⟩
  · rw [(Install.apply_eq_some ha).1, complete_session]
    cases hguest : r.guestID authResult with
    | none => exact hu
    | some v => exact congrArg some (h.unique v u (knows_of_guestID hp hguest) (Or.inr (Or.inl hu)))
  · exact hu
  · exact hu
  · rw [hs]; exact hu
  · rw [hs]; exact hu

end Step

/-! ## Runs -/

theorem oneGuest_fresh (cloud : Cloud) (auth : Option AuthUser) :
    (Guests.fresh cloud auth).OneGuest where
  unique := by
    have hknows : ∀ u, (Guests.fresh cloud auth).Knows u → guestOf auth = some u := by
      rintro u (hu | hu | hu | ⟨_, _, _, hj, -⟩ | ⟨_, hj, -⟩)
      · exact absurd hu List.not_mem_nil
      · exact absurd hu.symm (Option.some_ne_none _)
      · exact hu
      · exact absurd hj.symm (Option.some_ne_none _)
      · exact absurd hj.symm (Option.some_ne_none _)
    exact fun u v hu hv ↦ Option.some.inj ((hknows u hu).symm.trans (hknows v hv))
  stored h := absurd rfl h
  fresh id hid := absurd hid.symm (Option.some_ne_none _)

/-- The answers are Firebase's, and the skips are careful. -/
def Guests.Orderly (s : Guests) (e : Event) : Prop := s.FirebaseAnswers e ∧ s.Careful e

/-- **One guest for one install.**  In a run of careful skips, sign-ins and sign-outs, whatever
their order, all guests `setupUser` has been called for are the same, and the stored guest id, once
there is one, is still the same at the end. -/
theorem one_guest {cloud : Cloud} {auth : Option AuthUser} {es : List Event} {t : Guests}
    (hm : Meets Guests.step Guests.Orderly (.fresh cloud auth) es)
    (hrun : run Guests.step (.fresh cloud auth) es = some t) :
    (∀ u ∈ t.provisioned, ∀ v ∈ t.provisioned, u = v) ∧
    ∀ as bs m u, es = as ++ bs → run Guests.step (.fresh cloud auth) as = some m →
      m.install.session.anonymousUserID = some u → t.install.session.anonymousUserID = some u := by
  have hstep : ∀ s e s', Guests.OneGuest s → s.Orderly e → s.step e = some s' → s'.OneGuest :=
    fun s e s' h hc hs ↦ oneGuest_step h hc.1 hc.2 hs
  have hone := run_invariant hstep (oneGuest_fresh cloud auth) hm hrun
  refine ⟨fun u hu v hv ↦ hone.unique u v (Or.inl hu) (Or.inl hv), ?_⟩
  rintro as bs m u rfl has hu
  rw [run_append, has, Option.bind_some] at hrun
  have hm' : m.OneGuest := run_invariant hstep (oneGuest_fresh cloud auth)
    (hm.initial (List.prefix_append as bs)) has
  have hrest := hm.of_append has
  exact (run_invariant (I := fun s ↦ s.OneGuest ∧ s.install.session.anonymousUserID = some u)
    (fun s e s' h hc hs ↦ ⟨hstep s e s' h.1 hc hs, stored_step h.1 hs h.2⟩) ⟨hm', hu⟩ hrest hrun).2

/-- A second skip is confirmed after the answer to the first one, and before its handler. -/
def skippingAgain : List Event :=
  [.tap 0 .skipOkay, .respond 0 (some guestAccount) none, .tap 1 .skipOkay,
    .respond 1 (some guestAccount) none, .deliver 0 0, .deliver 1 1]

theorem one_guest_skippingAgain : ∃ t, run Guests.step (.fresh (.start .plain []) none)
    skippingAgain = some t ∧ ∀ u ∈ t.provisioned, ∀ v ∈ t.provisioned, u = v := by
  obtain ⟨t, ht⟩ : ∃ t, run Guests.step (.fresh (.start .plain []) none) skippingAgain = some t :=
    ⟨_, rfl⟩
  refine ⟨t, ht, (one_guest ?_ ht).1⟩
  rw [skippingAgain, meets_cons rfl, meets_cons rfl, meets_cons rfl, meets_cons rfl,
    meets_cons rfl, meets_cons rfl]
  refine ⟨⟨trivial, fun _ ⟨j, hj⟩ ↦ ?_⟩, ⟨⟨rfl, List.not_mem_nil⟩, trivial⟩,
    ⟨trivial, fun _ _ ↦ Option.some_ne_none guest⟩, ⟨⟨rfl, rfl⟩, trivial⟩, ⟨trivial, trivial⟩,
    ⟨trivial, trivial⟩, trivial⟩
  rcases hj with hj | ⟨user, error, hj⟩
  · exact absurd hj.symm (Option.some_ne_none _)
  · exact absurd hj.symm (Option.some_ne_none _)

/-- The account of another guest. -/
def otherGuest : AuthUser :=
  { guestAccount with uid := ⟨"other guest", by decide, by decide⟩ }

/-- Two skips are confirmed before the first one is answered. -/
def skippingTogether : List Event :=
  [.tap 0 .skipOkay, .tap 1 .skipOkay, .respond 0 (some guestAccount) none,
    .respond 1 (some otherGuest) none, .deliver 0 0, .deliver 1 1]

/-- **Two guests can be provisioned.** -/
theorem not_one_guest : ¬∀ (es : List Event) (t : Guests),
    Meets Guests.step Guests.FirebaseAnswers (.fresh (.start .plain []) none) es →
    run Guests.step (.fresh (.start .plain []) none) es = some t →
    ∀ u ∈ t.provisioned, ∀ v ∈ t.provisioned, u = v := by
  intro h
  obtain ⟨t, ht, hprovisioned⟩ : ∃ t, run Guests.step (.fresh (.start .plain []) none)
      skippingTogether = some t ∧ t.provisioned = [guestAccount.uid, otherGuest.uid] :=
    ⟨_, rfl, rfl⟩
  have hm : Meets Guests.step Guests.FirebaseAnswers (.fresh (.start .plain []) none)
      skippingTogether := by
    rw [skippingTogether, meets_cons rfl, meets_cons rfl, meets_cons rfl, meets_cons rfl,
      meets_cons rfl, meets_cons rfl]
    have hfresh : otherGuest.uid ∉ [guestAccount.uid] := by decide
    exact ⟨trivial, trivial, ⟨rfl, List.not_mem_nil⟩, ⟨rfl, hfresh⟩, trivial, trivial, trivial⟩
  have hsame := h _ t hm ht guestAccount.uid (by simp [hprovisioned]) otherGuest.uid
    (by simp [hprovisioned])
  exact absurd hsame (by decide)

end LandCap
