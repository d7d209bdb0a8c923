import LandCap.Login.Provisioned
import LandCap.Login.Session

/-!
# Schedules that keep a session right

What can go wrong with a session goes wrong in single steps: `matches_step` and `hasQuota_step` say
in which, by what a block or a handler finds when it is run.  The two schedules here are told from
the order of things alone, and no such step comes up in them.

* One flow at a time, of a user who is signed out (`matches_of_oneAtATime`): the session matches the
  flow that opened Home.
* No Home as long as `setupUser` is not over, which does not fail, and no record begun by anything
  else (`hasQuota_of_patient`): a signed-in session has its quota.

Neither has a registration in it.  It does not store the account it has made, so its block opens
Home for whoever was the current user before.
-/

set_option autoImplicit false

namespace LandCap

open PathTree Runs

/-! ## Flows but for registrations -/

/-- The request belongs to a registration. -/
def Request.Registers : Request → Prop
  | .createUser .. | .sendEmailVerification _ => True
  | _ => False

def Tap.Registers : Tap → Prop
  | .registerBtn .. => True
  | _ => False

/-- A Facebook login is answered with an account where it is answered with no error. -/
def Install.GivesAccount (s : Install) : Event → Prop
  | .respond id authResult error => ∀ token,
    s.pending id = some (.request (.signInAndRetrieveData token)) → error = none →
    authResult.isSome = true
  | _ => True

/-! ## One flow at a time -/

/-- A flow is started when nobody is signed in and no other flow is under way. -/
def Install.OneAtATime (s : Install) : Event → Prop
  | .tap _ t => s.session.isSignedIn = false ∧ (∀ j, s.pending j = none) ∧ ¬t.Registers
  | e => s.GivesAccount e

/-- The flow will leave the session as it has to be. -/
def Pending.Leads (session : Session) : Pending → Prop
  | .request r => ¬r.Registers
  | .completion r authResult error => ¬r.Registers ∧
    ∀ token, r = .signInAndRetrieveData token → error = none → authResult.isSome = true
  | .block o => o.flow ≠ .skip → o.Matches session

/-- There is one flow at most, before Home is opened. -/
structure Install.Alone (s : Install) : Prop where
  current : s.Matches
  single : ∀ i j, s.pending i ≠ none → s.pending j ≠ none → i = j
  signedOut : ∀ j, s.pending j ≠ none → s.session.isSignedIn = false
  leads : ∀ j p, s.pending j = some p → p.Leads s.session

/-- A flow begins with a request, or with the block of a guest who is known. -/
theorem start_cases {session : Session} {t : Tap} {p : Pending} (h : t.start session = some p)
    (ht : ¬t.Registers) : (∃ r, p = .request r ∧ ¬r.Registers) ∨
      p = .block { flow := .skip, uid := none } ∧ session.anonymousUserID.isSome = true := by
  cases t with
  | registerBtn name email password => exact absurd trivial ht
  | signInBtn email password =>
    simp only [Tap.start, Option.bind_eq_bind, Option.bind_eq_some_iff] at h
    obtain ⟨email, -, password, -, h⟩ := h
    exact Or.inl ⟨_, (Option.some.inj h).symm, not_false⟩
  | requestNewPassword email =>
    obtain ⟨email, -, rfl⟩ := Option.map_eq_some_iff.mp h
    exact Or.inl ⟨_, rfl, not_false⟩
  | loginButton token =>
    obtain ⟨token, -, rfl⟩ := Option.map_eq_some_iff.mp h
    exact Or.inl ⟨_, rfl, not_false⟩
  | skipOkay =>
    rw [Tap.start] at h
    split at h
    · exact Or.inl ⟨_, (Option.some.inj h).symm, not_false⟩
    · rename_i hguest
      exact Or.inr ⟨(Option.some.inj h).symm, Option.isSome_iff_ne_none.mpr hguest⟩

theorem leads_start {session : Session} {t : Tap} {p : Pending} (h : t.start session = some p)
    (ht : ¬t.Registers) : p.Leads session := by
  rcases start_cases h ht with ⟨r, rfl, hr⟩ | ⟨rfl, -⟩
  · exact hr
  · exact fun hskip ↦ absurd rfl hskip

/-- The block a handler leaves is for the session the handler leaves. -/
theorem leads_complete {session : Session} {auth authResult : Option AuthUser} {r : Request}
    {error : Option AuthError} {p : Pending}
    (h : (Pending.completion r authResult error).Leads session)
    (hp : (complete session auth r authResult error).next = some p) :
    p.Leads (complete session auth r authResult error).session := by
  obtain ⟨hregisters, hfacebook⟩ := h
  cases r with
  | createUser | sendEmailVerification => exact absurd trivial hregisters
  | sendPasswordReset email => simp [complete, Effect.skip] at hp
  | signIn email password =>
    rcases error with - | error <;> rcases authResult with - | user
    case none.some =>
      cases hv : user.isEmailVerified with
      | false => simp [complete, Effect.skip, hv] at hp
      | true =>
        obtain rfl : Pending.block { flow := .signIn, uid := some user.uid } = p := by
          simpa [complete, Effect.skip, hv] using hp
        intro _
        simp [Opening.Matches, complete, Effect.skip, hv]
    all_goals simp [complete, Effect.skip] at hp
  | signInAnonymously =>
    rcases authResult with - | user
    · simp [complete, Effect.skip] at hp
    · obtain rfl := Option.some.inj hp
      exact fun hskip ↦ absurd rfl hskip
  | signInAndRetrieveData token =>
    rcases error with - | error
    · obtain ⟨user, rfl⟩ := Option.isSome_iff_exists.mp (hfacebook token rfl rfl)
      obtain rfl := Option.some.inj hp
      exact fun _ ↦ ⟨rfl, user.uid, rfl, rfl⟩
    · simp [complete, Effect.skip] at hp

/-- Nothing has begun, and nobody has signed in or out. -/
theorem Install.Alone.of_kept {s s' : Install} (h : s.Alone) (hcurrent : s'.Matches)
    (hpending : ∀ j, s'.pending j ≠ none → s.pending j ≠ none)
    (hsession : s'.session.isSignedIn = s.session.isSignedIn)
    (hleads : ∀ j p, s'.pending j = some p → p.Leads s'.session) : s'.Alone where
  current := hcurrent
  single i j hi hj := h.single i j (hpending i hi) (hpending j hj)
  signedOut j hj := hsession.trans (h.signedOut j (hpending j hj))
  leads := hleads

/-- **The step lemma**: with one flow at a time, what a flow leaves is not touched by another. -/
theorem alone_step {s s' : Install} {e : Event} (h : s.Alone) (he : s.OneAtATime e)
    (hstep : s.step e = some s') : s'.Alone := by
  have hquiet : ∀ {j p}, s.pending j = some p → s.session.isSignedIn ≠ true := fun hj ↦ by
    rw [h.signedOut _ (hj ▸ Option.some_ne_none _)]
    exact Bool.false_ne_true
  have hundisturbed : s.Undisturbed e := by
    cases e with
    | deliver id call =>
      exact ⟨fun o ho hflow ↦ h.leads id _ ho hflow, fun _ _ _ hr hsig ↦ absurd hsig (hquiet hr)⟩
    | _ => trivial
  have hcurrent : s'.Matches := (matches_step h.current hstep).mpr hundisturbed
  cases Install.stepped hstep with
  | tap id t hfree =>
    obtain ⟨hout, hnone, ht⟩ := he
    have hnew : ∀ j p, Function.update s.pending id (t.start s.session) j = some p →
        j = id ∧ t.start s.session = some p := fun j p hp ↦
      (update_eq_some hp).resolve_right fun hold ↦ absurd hold.2 (by simp [hnone])
    refine ⟨hcurrent, fun i j hi hj ↦ ?_, fun _ _ ↦ hout, fun j p hp ↦ ?_⟩
    · obtain ⟨p, hp⟩ := Option.ne_none_iff_exists'.mp hi
      obtain ⟨q, hq⟩ := Option.ne_none_iff_exists'.mp hj
      exact (hnew i p hp).1.trans (hnew j q hq).1.symm
    · exact leads_start (hnew j p hp).2 ht
  | respond id authResult error r hr =>
    refine h.of_kept hcurrent (fun j hj ↦ ?_) rfl fun j p hp ↦ ?_
    · rcases eq_or_ne j id with rfl | hne
      · exact hr ▸ Option.some_ne_none _
      · exact fun hnone ↦ hj ((Function.update_of_ne hne _ _).trans hnone)
    · rcases update_eq_some hp with ⟨rfl, hnew⟩ | ⟨-, hold⟩
      · obtain rfl := Option.some.inj hnew
        exact ⟨h.leads j _ hr, fun token htoken ↦ he token (htoken ▸ hr)⟩
      · exact h.leads j p hold
  | handle id call r authResult error _ hr ha =>
    obtain ⟨cloud, -, rfl⟩ := Option.map_eq_some_iff.mp ha
    -- only this flow can go on
    have honly : ∀ j, Function.update s.pending id
        (complete s.session s.auth r authResult error).next j ≠ none → j = id := by
      intro j hj
      by_contra hne
      rw [Function.update_of_ne hne] at hj
      exact hne (h.single j id hj (hr ▸ Option.some_ne_none _))
    have hsession := congrArg Session.isSignedIn
      (complete_session s.session s.auth r authResult error)
    refine h.of_kept hcurrent (fun j hj ↦ ?_) hsession fun j p hp ↦ ?_
    · rw [honly j hj, hr]
      exact Option.some_ne_none _
    · have hnext : Function.update s.pending id
          (complete s.session s.auth r authResult error).next j = some p := hp
      rw [honly j (hnext ▸ Option.some_ne_none _), Function.update_self] at hnext
      exact leads_complete (h.leads id _ hr) hnext
  | enter id call o ho =>
    -- the flow is over, and was the only one
    have hnone : ∀ j, (s.enter id o).pending j = none := by
      intro j
      by_contra hj
      obtain ⟨p, hp⟩ := Option.ne_none_iff_exists'.mp hj
      obtain ⟨hne, hold⟩ := update_eq_some_of_ne hp (by simp)
      exact hne (h.single j id (hold ▸ Option.some_ne_none _) (ho ▸ Option.some_ne_none _))
    exact ⟨hcurrent, fun i _ hi _ ↦ absurd (hnone i) hi, fun j hj ↦ absurd (hnone j) hj,
      fun j p hp ↦ absurd ((hnone j).symm.trans hp) (Option.some_ne_none p).symm⟩
  | signOut =>
    exact ⟨hcurrent, h.single, fun _ _ ↦ rfl, fun j p hp ↦ by
      have hleads := h.leads j p hp
      cases p <;> exact hleads⟩
  | relaunch =>
    exact ⟨hcurrent, fun _ _ hi _ ↦ absurd rfl hi, fun _ hj ↦ absurd rfl hj,
      fun _ p hp ↦ absurd hp.symm (Option.some_ne_none p)⟩
  | cloud a cloud hc => exact h.of_kept hcurrent (fun _ hj ↦ hj) rfl h.leads

/-- **One flow at a time keeps the session right**: it matches the flow that opened Home in every
state of the run. -/
theorem matches_of_oneAtATime {s₀ : Install} {es : List Event} (hs : s₀.opened = [])
    (hnone : ∀ j, s₀.pending j = none) (hm : Meets Install.step Install.OneAtATime s₀ es) :
    Throughout Install.step Install.Matches s₀ es := by
  have halone : s₀.Alone :=
    ⟨fun _ o ho ↦ by simp [hs] at ho, fun i _ hi _ ↦ absurd (hnone i) hi,
      fun j hj ↦ absurd (hnone j) hj, fun j p hp ↦ by simp [hnone] at hp⟩
  have hrun := throughout_of_meets (fun s e s' h he hstep ↦ alone_step h he hstep) halone hm
  exact fun bs hbs t ht ↦ (hrun bs hbs t ht).current

/-- A sign-in is such a schedule. -/
theorem oneAtATime_signingIn :
    Meets Install.step Install.OneAtATime (.fresh (.start .plain [])) signingIn := by
  rw [signingIn, meets_cons rfl, meets_cons rfl, meets_cons rfl, meets_cons rfl]
  refine ⟨⟨rfl, fun _ ↦ rfl, not_false⟩, fun token hrequest ↦ ?_, trivial, trivial, trivial⟩
  exact Request.noConfusion (Pending.request.inj (Option.some.inj hrequest))

/-! ## Home waits for `setupUser` -/

/-- A step of `setupUser` for this user is in flight. -/
def Cloud.SettingUp (s : Cloud) (u : UserID) : Prop :=
  ∃ j user, user.Key = u ∧
    (s.inFlight j = some (.setupRead user) ∨ s.inFlight j = some (.setupWrite user))

/-- The step writes into the record of its user, or leads to one that does. -/
def Task.NeedsRecord : Task → Prop
  | .limitWrite .. | .nameWrite .. | .profileUrlWrite .. | .putData .. | .downloadURL ..
  | .imageWrite .. | .imageRemove .. => True
  | _ => False

/-- A call that writes into a record finds one, and no step of `setupUser` fails. -/
def Cloud.Patient (s : Cloud) : Action → Prop
  | .call _ c => ∀ t, c.task = some t → t.NeedsRecord → Usable t.user s.database
  | .fail id => ∀ user, s.inFlight id ≠ some (.setupRead user) ∧
    s.inFlight id ≠ some (.setupWrite user)
  | .deliver _ => True

/-- Every record has a quota, and what is in flight does not begin one. -/
structure Cloud.Prepared (s : Cloud) : Prop where
  record : ∀ u, ¬HasChildren (snapshot (userRef u) s.database) ∨ Usable u s.database
  needs : ∀ j t, s.inFlight j = some t → t.NeedsRecord → Usable t.user s.database

/-- The user has a quota, or will have one. -/
def Cloud.Expects (s : Cloud) (u : UserID) : Prop := Usable u s.database ∨ s.SettingUp u

section Cloud

variable {s s' : Cloud} {a : Action} {u : UserID}

/-- What follows a step needs a record only where there is one. -/
theorem usable_followUp (h : s.Prepared) {t t' : Task} {id : ℕ} (ht : s.inFlight id = some t)
    (hf : s.followUp t = some t') (hneeds : t'.NeedsRecord) : Usable t'.user s.database := by
  rw [Cloud.user_followUp hf]
  cases Cloud.followUp_cases hf with
  | limitWrite userID limitCount hread hpos => exact ⟨limitCount, hread⟩
  | downloadURL | imageWrite | profileUrlWrite => exact h.needs id _ ht trivial
  | setupWrite | images | next => exact hneeds.elim

theorem record_write (h : s.Prepared) {t : Task} {id : ℕ} (ht : s.inFlight id = some t)
    (u : UserID) : ¬HasChildren (snapshot (userRef u) (t.write s.database)) ∨
      Usable u (t.write s.database) := by
  rcases h.record u with hnone | husable
  · by_cases hu : t.user = u
    · subst hu
      by_cases hneeds : t.NeedsRecord
      · exact Or.inr (usable_write (h.needs id t ht hneeds) t)
      · cases t with
        | setupWrite user => exact Or.inr (usable_setupWrite user s.database)
        | limitWrite | nameWrite | profileUrlWrite | putData | downloadURL | imageWrite
        | imageRemove => exact absurd trivial hneeds
        | setupRead | limitRead | nameRead | imagesRead | images => exact Or.inl hnone
    · rw [Task.snapshot_write_of_user_ne hu]
      exact Or.inl hnone
  · exact Or.inr (usable_write husable t)

/-- **The step lemma** for the cloud: every record keeps its quota, and no other is begun. -/
theorem prepared_step (h : s.Prepared) (ha : s.Patient a) (hstep : s.step a = some s') :
    s'.Prepared := by
  cases a with
  | call id c =>
    obtain ⟨-, rfl⟩ := Cloud.step_call hstep
    refine ⟨h.record, fun j t ht ↦ ?_⟩
    rcases update_eq_some ht with ⟨-, hnew⟩ | ⟨-, hold⟩
    · exact ha t hnew
    · exact h.needs j t hold
  | fail id =>
    obtain rfl := Cloud.step_fail hstep
    exact ⟨h.record, fun j t ht ↦ h.needs j t (update_eq_some_of_ne ht (by simp)).2⟩
  | deliver id =>
    obtain ⟨t, ht, rfl⟩ := Cloud.step_deliver hstep
    refine ⟨record_write h ht, fun j t' ht' hneeds ↦ ?_⟩
    have hobserver : ∀ v q, t' ≠ .images v q := by
      rintro v q rfl
      exact hneeds
    rcases Cloud.perform_inFlight ht' hobserver with ⟨-, hf⟩ | ⟨-, hold⟩
    · exact usable_write (usable_followUp h ht hf hneeds) t
    · exact usable_write (h.needs j t' hold hneeds) t

/-- A user who is to have a quota gets it. -/
theorem expects_step (h : s.Prepared) (ha : s.Patient a) (hstep : s.step a = some s')
    (hu : s.Expects u) : s'.Expects u := by
  rcases hu with husable | ⟨j, user, rfl, hj⟩
  · exact Or.inl (usable_step husable hstep)
  · by_cases hid : a.id = j
    · subst hid
      cases a with
      | call id c =>
        obtain ⟨hfree, -⟩ := Cloud.step_call hstep
        rcases hj with hj | hj <;> exact absurd (hfree.symm.trans hj) (Option.some_ne_none _).symm
      | fail id => exact absurd hj (not_or.mpr (ha user))
      | deliver id =>
        obtain ⟨t, ht, rfl⟩ := Cloud.step_deliver hstep
        rcases hj with hj | hj <;> obtain rfl := Option.some.inj (ht.symm.trans hj)
        · -- the read finds a record, and so a quota, or is followed by the write of one
          rcases h.record user.Key with hnone | husable
          · refine Or.inr ⟨id, user, rfl, Or.inr ?_⟩
            rw [s.perform_inFlight_self, Cloud.followUp,
              if_pos (asDictionary_eq_none_iff.mpr hnone)]
          · exact Or.inl (usable_step husable hstep)
        · exact Or.inl (usable_setupWrite user s.database)
    · refine Or.inr ⟨j, user, rfl, ?_⟩
      exact hj.imp (Cloud.step_inFlight_of_ne hid (by simp) hstep)
        (Cloud.step_inFlight_of_ne hid (by simp) hstep)

theorem expects_setupUser {id : ℕ} {user : CapUser}
    (h : s.step (.call id (.setupUser user)) = some s') : s'.Expects user.Key := by
  obtain ⟨-, rfl⟩ := Cloud.step_call h
  exact Or.inr ⟨id, user, rfl, Or.inl (Function.update_self ..)⟩

/-- The `setupUser` call of a handler, if it makes one. -/
theorem prepared_provision {e : Effect} {call : ℕ} (h : s.Prepared)
    (hc : e.provision call s = some s') :
    s'.Prepared ∧ s'.database = s.database ∧ ∀ u, s.Expects u → s'.Expects u := by
  rw [Effect.provision] at hc
  split at hc
  · rename_i user _
    have hpatient : s.Patient (.call call (.setupUser user)) := by
      rintro t ht hneeds
      obtain rfl := Option.some.inj ht
      exact hneeds.elim
    refine ⟨prepared_step h hpatient hc, ?_, fun u hu ↦ expects_step h hpatient hc hu⟩
    obtain ⟨-, rfl⟩ := Cloud.step_call hc
    rfl
  · obtain rfl := Option.some.inj hc
    exact ⟨h, rfl, fun _ hu ↦ hu⟩

end Cloud

/-- Nobody registers.  Whoever signs in with an email address has a quota.  Home is opened when no
`setupUser` is under way, and the completion handlers are run before. -/
def Install.Patient (s : Install) : Event → Prop
  | .tap _ t => ¬t.Registers
  | .respond id authResult error => s.GivesAccount (.respond id authResult error) ∧
    ∀ email password, s.pending id = some (.request (.signIn email password)) →
      ∀ user ∈ authResult, Usable user.uid s.cloud.database
  | .deliver id _ =>
    (∀ o, s.pending id = some (.block o) → ∀ u, ¬s.cloud.SettingUp u) ∧
    ∀ r authResult error, s.pending id = some (.completion r authResult error) →
      s.session.isSignedIn = false
  | .cloud a => s.cloud.Patient a
  | _ => True

/-- The flow will open Home for a user who is to have a quota. -/
def Pending.Awaits (s : Install) : Pending → Prop
  | .request r => ¬r.Registers
  | .completion r authResult error => ¬r.Registers ∧
    (∀ token, r = .signInAndRetrieveData token → error = none → authResult.isSome = true) ∧
    ∀ email password, r = .signIn email password →
      ∀ user ∈ authResult, Usable user.uid s.cloud.database
  | .block o => if o.flow = .skip then s.session.anonymousUserID.isSome = true
    else s.session.storedUserID.isSome = true

/-- Everybody the session knows has a quota, or will have one. -/
structure Install.Prepared (s : Install) : Prop where
  quota : s.HasQuota
  cloud : s.cloud.Prepared
  stored : ∀ u, s.session.storedUserID = some u → s.cloud.Expects u
  guest : ∀ u, s.session.anonymousUserID = some u → s.cloud.Expects u
  anonymous : s.session.isAnonymous = true → s.session.anonymousUserID.isSome = true
  awaits : ∀ j p, s.pending j = some p → p.Awaits s

section Install

variable {s s' : Install} {e : Event}

/-- Whoever a handler stores has a quota, or the handler calls `setupUser` for them. -/
theorem expects_complete (hs : s.cloud.Prepared) {r : Request} {authResult : Option AuthUser}
    {error : Option AuthError} {call : ℕ} {cloud : Cloud} {u : UserID}
    (hr : (Pending.completion r authResult error).Awaits s)
    (hc : (complete s.session s.auth r authResult error).provision call s.cloud = some cloud)
    (hu : r.storesID authResult error = some u ∨ r.guestID authResult = some u) :
    cloud.Expects u := by
  obtain ⟨hregisters, -, hsignIn⟩ := hr
  have hsetup : ∀ user, (complete s.session s.auth r authResult error).setup = some user →
      cloud.Expects user.Key := by
    intro user huser
    rw [Effect.provision, huser] at hc
    exact expects_setupUser hc
  cases r with
  | createUser | sendEmailVerification => exact absurd trivial hregisters
  | sendPasswordReset email => exact absurd hu (by simp [Request.storesID, Request.guestID])
  | signIn email password =>
    simp only [Request.storesID, Request.guestID, reduceCtorEq, or_false] at hu
    split at hu
    · obtain ⟨user, huser, rfl⟩ := Option.map_eq_some_iff.mp hu
      obtain ⟨huser, hverified⟩ := Option.filter_eq_some_iff.mp huser
      refine Or.inl ?_
      rw [(prepared_provision hs hc).2.1]
      exact hsignIn email password rfl user huser
    · exact absurd hu (Option.some_ne_none _).symm
  | signInAnonymously =>
    simp only [Request.storesID, Request.guestID, reduceCtorEq, false_or] at hu
    obtain ⟨user, rfl, rfl⟩ := Option.map_eq_some_iff.mp hu
    exact hsetup (.setAnonymousUser user.uid) rfl
  | signInAndRetrieveData token =>
    simp only [Request.storesID, Request.guestID, reduceCtorEq, or_false] at hu
    split at hu
    · rename_i herror
      obtain ⟨user, rfl, rfl⟩ := Option.map_eq_some_iff.mp hu
      exact hsetup (.setAuthorizedUser user.uid user.displayName) (by simp [complete, herror])
    · exact absurd hu (Option.some_ne_none _).symm

/-- A flow goes on waiting for the same users, when no id is forgotten and no quota. -/
theorem Pending.Awaits.mono {p : Pending} (h : p.Awaits s)
    (hstored : s.session.storedUserID.isSome = true → s'.session.storedUserID.isSome = true)
    (hguest : s.session.anonymousUserID.isSome = true → s'.session.anonymousUserID.isSome = true)
    (husable : ∀ u, Usable u s.cloud.database → Usable u s'.cloud.database) : p.Awaits s' := by
  cases p with
  | request r => exact h
  | completion r authResult error =>
    exact ⟨h.1, h.2.1, fun email password hr user huser ↦
      husable _ (h.2.2 email password hr user huser)⟩
  | block o =>
    rw [Pending.Awaits] at h ⊢
    split
    · rename_i ho
      rw [if_pos ho] at h
      exact hguest h
    · rename_i ho
      rw [if_neg ho] at h
      exact hstored h

theorem awaits_start {t : Tap} {p : Pending} (h : t.start s.session = some p)
    (ht : ¬t.Registers) : p.Awaits s := by
  rcases start_cases h ht with ⟨r, rfl, hr⟩ | ⟨rfl, hguest⟩
  · exact hr
  · exact hguest

/-- A handler leaves a flow with the ids it needs. -/
theorem awaits_complete {auth authResult : Option AuthUser} {r : Request}
    {error : Option AuthError} {p : Pending} (h : (Pending.completion r authResult error).Awaits s)
    (hp : (complete s.session auth r authResult error).next = some p)
    (hsession : s'.session = (complete s.session auth r authResult error).session) :
    p.Awaits s' := by
  have hlogin : (Pending.completion r authResult error).Leads s.session := ⟨h.1, h.2.1⟩
  have hleads := leads_complete hlogin hp
  rcases next_complete hp with ⟨o, rfl, hskip⟩ | ⟨registered, rfl⟩
  · rw [Pending.Awaits, hsession]
    split
    · rename_i ho
      obtain ⟨u, hu⟩ := Option.isSome_iff_exists.mp (hskip ho)
      rw [complete_session, hu]
      rfl
    · rename_i ho
      have hmatches := hleads ho
      rw [Opening.Matches, if_neg ho] at hmatches
      obtain ⟨-, u, -, hu⟩ := hmatches
      rw [hu]
      rfl
  · exact hleads

/-- Who Home is opened for has a quota, once `setupUser` is over. -/
theorem provisioned_block (h : s.Prepared) {o : Opening} (ho : (Pending.block o).Awaits s)
    (hover : ∀ u, ¬s.cloud.SettingUp u) :
    ∃ u, o.opensFor s.session = some u ∧ Usable u s.cloud.database := by
  have hguest : s.session.anonymousUserID.isSome = true →
      ∃ u, s.session.anonymousUserID = some u ∧ Usable u s.cloud.database := by
    intro hsome
    obtain ⟨u, hu⟩ := Option.isSome_iff_exists.mp hsome
    exact ⟨u, hu, (h.guest u hu).resolve_right (hover u)⟩
  rw [Pending.Awaits] at ho
  rw [Opening.opensFor, Session.activeID]
  by_cases hskip : o.flow = .skip
  · rw [if_pos hskip] at ho ⊢
    exact hguest ho
  · rw [if_neg hskip] at ho ⊢
    split
    · rename_i hanonymous
      exact hguest (h.anonymous hanonymous)
    · obtain ⟨u, hu⟩ := Option.isSome_iff_exists.mp ho
      exact ⟨u, by rw [Session.currentUserID, hu]; rfl, (h.stored u hu).resolve_right (hover u)⟩

/-- Nothing has happened to the ids of the session, and no quota has got lost. -/
theorem Install.Prepared.of_kept (h : s.Prepared) (hquota : s'.HasQuota)
    (hstored : s'.session.storedUserID = s.session.storedUserID)
    (hguest : s'.session.anonymousUserID = s.session.anonymousUserID)
    (hanonymous : s'.session.isAnonymous = true → s.session.anonymousUserID.isSome = true)
    (hcloud : s'.cloud.Prepared) (hexpects : ∀ u, s.cloud.Expects u → s'.cloud.Expects u)
    (husable : ∀ u, Usable u s.cloud.database → Usable u s'.cloud.database)
    (hawaits : ∀ j p, s'.pending j = some p → p.Awaits s) : s'.Prepared where
  quota := hquota
  cloud := hcloud
  stored u hu := hexpects u (h.stored u (hstored ▸ hu))
  guest u hu := hexpects u (h.guest u (hguest ▸ hu))
  anonymous := hguest ▸ hanonymous
  awaits j p hp := (hawaits j p hp).mono (hstored ▸ id) (hguest ▸ id) husable

/-- A handler stores nobody who is not to have a quota. -/
theorem prepared_handle (h : s.Prepared) {id call : ℕ} {r : Request}
    {authResult : Option AuthUser} {error : Option AuthError}
    (hr : s.pending id = some (.completion r authResult error)) (hquota : s'.HasQuota)
    (ha : s.apply id call (complete s.session s.auth r authResult error) = some s') :
    s'.Prepared := by
  have hawaits := h.awaits id _ hr
  obtain ⟨cloud, hc, rfl⟩ := Option.map_eq_some_iff.mp ha
  obtain ⟨hcloud, hdatabase, hexpects⟩ := prepared_provision h.cloud hc
  have hsession := complete_session s.session s.auth r authResult error
  have hstored : s.session.storedUserID.isSome = true →
      (complete s.session s.auth r authResult error).session.storedUserID.isSome = true := by
    intro hsome
    rw [hsession, Option.isSome_or, hsome, Bool.or_true]
  have hguest : s.session.anonymousUserID.isSome = true →
      (complete s.session s.auth r authResult error).session.anonymousUserID.isSome = true := by
    intro hsome
    rw [hsession, Option.isSome_or, hsome, Bool.or_true]
  refine ⟨hquota, hcloud, fun u hu ↦ ?_, fun u hu ↦ ?_, fun hanonymous ↦ ?_, fun j p hp ↦ ?_⟩
  · have hu' : (complete s.session s.auth r authResult error).session.storedUserID = some u := hu
    rw [hsession, Option.or_eq_some_iff] at hu'
    rcases hu' with hnew | ⟨-, hold⟩
    · exact expects_complete h.cloud hawaits hc (Or.inl hnew)
    · exact hexpects u (h.stored u hold)
  · have hu' : (complete s.session s.auth r authResult error).session.anonymousUserID = some u := hu
    rw [hsession, Option.or_eq_some_iff] at hu'
    rcases hu' with hnew | ⟨-, hold⟩
    · exact expects_complete h.cloud hawaits hc (Or.inr hnew)
    · exact hexpects u (h.guest u hold)
  · have hold : (complete s.session s.auth r authResult error).session.isAnonymous = true :=
      hanonymous
    rw [hsession, Bool.and_eq_true] at hold
    exact hguest (h.anonymous hold.1)
  · rcases update_eq_some hp with ⟨-, hnext⟩ | ⟨-, hold⟩
    · exact awaits_complete hawaits hnext rfl
    · exact (h.awaits j p hold).mono hstored hguest fun _ hu ↦ hdatabase.symm ▸ hu

/-- **The step lemma**: whoever the session knows has a quota or is to have one, and nobody is
waited for in vain. -/
theorem patient_step (h : s.Prepared) (he : s.Patient e) (hstep : s.step e = some s') :
    s'.Prepared := by
  have hprovisioned : s.Provisioned e := by
    cases e with
    | deliver id call =>
      exact ⟨fun o ho ↦ provisioned_block h (h.awaits id _ ho) (he.1 o ho),
        fun r authResult error hr hsig ↦ absurd (he.2 r authResult error hr) (by simp [hsig])⟩
    | _ => trivial
  have hquota : s'.HasQuota := (hasQuota_step h.quota hstep).mpr hprovisioned
  cases Install.stepped hstep with
  | tap id t hfree =>
    refine h.of_kept hquota rfl rfl h.anonymous h.cloud (fun _ hu ↦ hu) (fun _ hu ↦ hu)
      fun j p hp ↦ ?_
    rcases update_eq_some hp with ⟨-, hstart⟩ | ⟨-, hold⟩
    · exact awaits_start hstart he
    · exact h.awaits j p hold
  | respond id authResult error r hr =>
    refine h.of_kept hquota rfl rfl h.anonymous h.cloud (fun _ hu ↦ hu) (fun _ hu ↦ hu)
      fun j p hp ↦ ?_
    rcases update_eq_some hp with ⟨-, hnew⟩ | ⟨-, hold⟩
    · obtain rfl := Option.some.inj hnew
      exact ⟨h.awaits id _ hr, fun token htoken ↦ he.1 token (htoken ▸ hr),
        fun email password hsignIn ↦ he.2 email password (hsignIn ▸ hr)⟩
    · exact h.awaits j p hold
  | relaunch =>
    exact h.of_kept hquota rfl rfl h.anonymous h.cloud (fun _ hu ↦ hu) (fun _ hu ↦ hu)
      fun j p hp ↦ absurd hp.symm (Option.some_ne_none p)
  | signOut =>
    exact h.of_kept hquota rfl rfl h.anonymous h.cloud (fun _ hu ↦ hu) (fun _ hu ↦ hu) h.awaits
  | enter id call o ho =>
    refine h.of_kept hquota rfl rfl (fun hanonymous ↦ ?_) h.cloud (fun _ hu ↦ hu)
      (fun _ hu ↦ hu) fun j p hp ↦ h.awaits j p (update_eq_some_of_ne hp (by simp)).2
    have hawaits := h.awaits id _ ho
    by_cases hskip : o.flow = .skip
    · rwa [Pending.Awaits, if_pos hskip] at hawaits
    · have hold : (if o.flow = .skip then true else s.session.isAnonymous) = true := hanonymous
      rw [if_neg hskip] at hold
      exact h.anonymous hold
  | cloud a cloud hc =>
    exact h.of_kept hquota rfl rfl h.anonymous (prepared_step h.cloud he hc)
      (fun _ hu ↦ expects_step h.cloud he hc hu) (fun _ hu ↦ usable_step hu hc) h.awaits
  | handle id call r authResult error _ hr ha =>
    exact prepared_handle h hr hquota ha

end Install

/-- **Home that waits for `setupUser` has a quota**, in every state of the run. -/
theorem hasQuota_of_patient {cloud : Cloud} {es : List Event} (hcloud : cloud.Prepared)
    (hm : Meets Install.step Install.Patient (.fresh cloud) es) :
    Throughout Install.step Install.HasQuota (.fresh cloud) es := by
  have hprepared : (Install.fresh cloud).Prepared :=
    ⟨fun hsig ↦ Bool.noConfusion hsig, hcloud, fun _ hu ↦ absurd hu.symm (Option.some_ne_none _),
      fun _ hu ↦ absurd hu.symm (Option.some_ne_none _), fun hanonymous ↦
        Bool.noConfusion hanonymous, fun _ p hp ↦ absurd hp.symm (Option.some_ne_none p)⟩
  have hrun := throughout_of_meets (fun s e s' h he hstep ↦ patient_step h he hstep) hprepared hm
  exact fun bs hbs t ht ↦ (hrun bs hbs t ht).quota

/-- A Facebook login that waits for `setupUser` is such a schedule. -/
theorem patient_patientLogin :
    Meets Install.step Install.Patient (.fresh (.start .plain [])) patientLogin := by
  rw [patientLogin, meets_cons rfl, meets_cons rfl, meets_cons rfl, meets_cons rfl, meets_cons rfl,
    meets_cons rfl]
  refine ⟨not_false, ⟨fun _ _ _ ↦ rfl, fun _ _ hrequest ↦ ?_⟩,
    ⟨fun _ hblock ↦ Pending.noConfusion (Option.some.inj hblock), fun _ _ _ _ ↦ rfl⟩, trivial,
    trivial, ⟨fun _ _ _ hsettingUp ↦ ?_,
      fun _ _ _ hcompletion ↦ Pending.noConfusion (Option.some.inj hcompletion)⟩, trivial⟩
  · exact Request.noConfusion (Pending.request.inj (Option.some.inj hrequest))
  · -- the cloud has nothing left to do
    obtain ⟨j, user, -, hsetup⟩ := hsettingUp
    cases j <;> exact hsetup.elim (absurd · (Option.some_ne_none _).symm)
      (absurd · (Option.some_ne_none _).symm)

end LandCap
