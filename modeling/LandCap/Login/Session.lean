import LandCap.Login.Basic

/-!
# The session and the flow that opened Home

Home asks `User.session` who its user is.  When it was opened by `skipBtn` that user should be a
guest, and when it was opened by one of the account flows it should be the account this flow has
authenticated: `Install.Matches`.

The flags are written at different moments.  A sign-in and a Facebook login store the id and clear
`isAnonymous` in the completion handler, and open Home later, from a block; a registration never
stores an id; a skip sets `isAnonymous` in the block.  `matches_iff` says which steps break the
match.  A block of an account flow has to find the session as its own handler would have left it,
and a handler that rewrites the session of a user who is signed in has to do so for the account
Home was opened with.  A run in which this is so at every step never loses the match, and any other
run loses it.

`not_matches` is a run that does: the block of a skip is run between the completion handler of a
sign-in and its block.  Where one flow at a time is started, of a user who is signed out, that does
not happen (`matches_of_oneAtATime`).
-/

set_option autoImplicit false

namespace LandCap

open PathTree Runs

/-- The session is the one Home is opened with by `o`. -/
def Opening.Matches (session : Session) (o : Opening) : Prop :=
  if o.flow = .skip then session.isAnonymous = true
  else session.isAnonymous = false ∧ ∃ uid, o.uid = some uid ∧ session.storedUserID = some uid

/-- While somebody is signed in, the session matches the most recent `nextController` call. -/
def Install.Matches (s : Install) : Prop :=
  s.session.isSignedIn = true → ∀ o ∈ s.opened.head?, o.Matches s.session

/-- A handler that ends being a guest, or stores an id, finds Home opened by an account flow, with
that id. -/
def Opening.Accepts (r : Request) (authResult : Option AuthUser) (error : Option AuthError)
    (o : Opening) : Prop :=
  (r.endsGuest authResult error = true → o.flow ≠ .skip) ∧
    ∀ uid, r.storesID authResult error = some uid → o.uid = some uid

/-- The step does not disturb the session of the flow that opens, or has opened, Home. -/
def Install.Undisturbed (s : Install) : Event → Prop
  | .deliver id _ =>
    (∀ o, s.pending id = some (.block o) → o.flow ≠ .skip → o.Matches s.session) ∧
    ∀ r authResult error, s.pending id = some (.completion r authResult error) →
      s.session.isSignedIn = true → ∀ o ∈ s.opened.head?, o.Accepts r authResult error
  | _ => True

/-! ## One step -/

/-- The block of a skip makes the session match by itself; the block of an account flow does not
write what the match is about. -/
theorem matches_enter (session : Session) (o : Opening) :
    o.Matches (o.enter session) ↔ (o.flow ≠ .skip → o.Matches session) := by
  by_cases ho : o.flow = .skip
  · simp [Opening.Matches, Opening.enter, ho]
  · simp [Opening.Matches, Opening.enter, ho]

/-- A handler keeps a match exactly if Home accepts what it writes. -/
theorem matches_complete {session : Session} {o : Opening} (h : o.Matches session)
    (auth : Option AuthUser) (r : Request) (authResult : Option AuthUser)
    (error : Option AuthError) :
    o.Matches (complete session auth r authResult error).session ↔
      o.Accepts r authResult error := by
  rw [complete_session, Opening.Accepts]
  by_cases ho : o.flow = .skip
  · rw [Opening.Matches, if_pos ho] at h ⊢
    simp only [h, Bool.true_and, Bool.not_eq_true', ho, ne_eq, not_true, imp_false,
      Bool.not_eq_true]
    refine ⟨fun he ↦ ⟨he, fun uid hs ↦ ?_⟩, And.left⟩
    rw [Request.endsGuest_of_storesID hs] at he
    exact absurd he (by simp)
  · rw [Opening.Matches, if_neg ho] at h ⊢
    obtain ⟨hguest, uid, huid, hstored⟩ := h
    simp only [hguest, Bool.false_and, true_and, huid, hstored, ne_eq, ho, not_false_eq_true,
      implies_true]
    cases hs : r.storesID authResult error with
    | none => simp
    | some uid' => simp [eq_comm]

/-- **The step lemma**: from a match, a step ends in a match exactly if it is undisturbed. -/
theorem matches_step {s s' : Install} {e : Event} (h : s.Matches) (hstep : s.step e = some s') :
    s'.Matches ↔ s.Undisturbed e := by
  rcases Install.step_cases hstep with ⟨id, call, r, authResult, error, rfl, hp, ha⟩ |
    ⟨id, call, o, rfl, hp, rfl⟩ | ⟨rfl, rfl⟩ | ⟨a, rfl, -, hs, ho⟩ | ⟨hne, hs, ho, -⟩
  · obtain ⟨hs, ho, -, -⟩ := Install.apply_eq_some ha
    have hsigned : (complete s.session s.auth r authResult error).session.isSignedIn
        = s.session.isSignedIn := by rw [complete_session]
    rw [Install.Matches, hs, ho, hsigned, Install.Undisturbed]
    simp only [hp, Option.some.injEq, reduceCtorEq, false_implies, implies_true, true_and,
      Pending.completion.injEq, and_imp]
    refine ⟨fun hm r' authResult' error' hr ha he hsig o hmem ↦ ?_,
      fun hm hsig o hmem ↦ ?_⟩
    · subst hr ha he
      exact (matches_complete (h hsig o hmem) s.auth _ _ _).mp (hm hsig o hmem)
    · exact (matches_complete (h hsig o hmem) s.auth _ _ _).mpr (hm _ _ _ rfl rfl rfl hsig o hmem)
  · rw [Install.Undisturbed]
    simp only [hp, Option.some.injEq, Pending.block.injEq, reduceCtorEq, false_implies,
      implies_true, and_true, forall_eq']
    rw [← matches_enter]
    refine ⟨fun hm ↦ hm rfl o rfl, fun hm hsig o' hmem ↦ ?_⟩
    obtain rfl : o = o' := Option.some.inj hmem
    exact hm
  · exact iff_of_true (fun hsig ↦ absurd hsig (by simp)) trivial
  · refine iff_of_true ?_ trivial
    rw [Install.Matches, hs, ho]
    exact h
  · have hu : s.Undisturbed e := by
      cases e <;> try trivial
      case deliver id call => exact absurd rfl (hne id call)
    refine iff_of_true ?_ hu
    rw [Install.Matches, hs, ho]
    exact h

/-- **The session matches the flow that opened Home** in every state of a run if and only if every
step of the run is undisturbed. -/
theorem matches_iff {s₀ t : Install} {es : List Event} (hs : s₀.opened = [])
    (hrun : run Install.step s₀ es = some t) :
    Throughout Install.step Install.Matches s₀ es ↔
      Meets Install.step Install.Undisturbed s₀ es := by
  have h₀ : s₀.Matches := fun _ o ho ↦ by simp [hs] at ho
  exact (meets_iff_throughout (I := fun _ ↦ True) (fun _ _ _ _ _ _ _ ↦ trivial)
    (fun _ _ _ _ hm hstep ↦ matches_step hm hstep) trivial h₀ hrun).symm

/-! ## A sign-in and a skip -/

/-- Signing in, until Home is open. -/
def signingIn : List Event :=
  [.tap 0 (.signInBtn (some "alice@example.org") (some "secret")),
    .respond 0 (some aliceAccount) none, .deliver 0 0, .deliver 0 0]

theorem matches_signingIn :
    Throughout Install.step Install.Matches (.fresh (.start .plain [])) signingIn := by
  obtain ⟨t, ht⟩ : ∃ t, run Install.step (.fresh (.start .plain [])) signingIn = some t := ⟨_, rfl⟩
  refine (matches_iff rfl ht).mpr ?_
  rw [signingIn, meets_cons rfl, meets_cons rfl, meets_cons rfl, meets_cons rfl]
  refine ⟨trivial, trivial, ⟨?_, ?_⟩, ⟨?_, ?_⟩, trivial⟩
  · intro o ho
    exact absurd ho (by simp)
  · intro _ _ _ _ hsig
    exact absurd hsig (by decide)
  · intro o ho _
    obtain rfl : o = { flow := .signIn, uid := some alice } :=
      (Pending.block.inj (Option.some.inj ho)).symm
    exact ⟨rfl, alice, rfl, rfl⟩
  · intro _ _ _ ho
    exact Pending.noConfusion (Option.some.inj ho)

/-- A skip and a sign-in, whose completion handlers run one after the other and then their
blocks. -/
def skippingAndSigningIn : List Event :=
  [.tap 0 .skipOkay, .tap 1 (.signInBtn (some "alice@example.org") (some "secret")),
    .respond 0 (some guestAccount) none, .respond 1 (some aliceAccount) none,
    .deliver 0 0, .deliver 1 1, .deliver 0 0, .deliver 1 1]

/-- **Home can be opened for an account while the session is a guest's.** -/
theorem not_matches : ¬∀ (s₀ : Install) (es : List Event) (t : Install), s₀ = .fresh s₀.cloud →
    run Install.step s₀ es = some t → t.Matches := by
  intro h
  obtain ⟨t, ht⟩ : ∃ t,
      run Install.step (.fresh (.start .plain [])) skippingAndSigningIn = some t := ⟨_, rfl⟩
  have hm := h _ skippingAndSigningIn t rfl ht
  obtain rfl := Option.some.inj ht
  obtain ⟨hguest, -⟩ := hm rfl { flow := .signIn, uid := some alice } rfl
  exact Bool.noConfusion hguest

end LandCap
