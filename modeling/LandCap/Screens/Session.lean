import LandCap.Screens.Leaving

/-!
# The screens and the session

Home and everything that is opened from it is for users who are signed in, and the window keeps to
this although nothing closes a screen when the session ends (`signed_out_in_front`).  `Guarded` is
the invariant: without a session, there is nothing above the topmost main stack, this stack
included, that has been opened from Home.
-/

set_option autoImplicit false

namespace LandCap

open Presentation Runs

/-! ## Without a session -/

/-- The screens for everybody. -/
def Screen.IsPublic : Screen → Prop
  | .connection | .page => True
  | _ => False

theorem Screen.IsPublic.isMain {screen : Screen} (h : screen.IsPublic) : screen.IsMain := by
  cases screen with
  | connection | page => exact trivial
  | _ => exact h.elim

/-- Without a session, these screens open nothing else. -/
theorem keeps_public {m n : ℕ} :
    rules.Keeps (IsNew false m n) fun o ↦ o.screen.IsPublic where
  presents {o c} hc ho _ x hx := by
    cases hc with
    | system o hd => exact absurd hx List.not_mem_nil
    | signOut o hhome =>
      have hpublic : o.screen.IsPublic := ho
      rcases hhome with hscreen | hscreen <;> exact (hscreen ▸ hpublic).elim
    | photo | info | detail => exact ho.elim
  pushes {o x} hx ho hnew := by
    have hhome : x.screen ≠ .home := fun heq ↦ Bool.false_ne_true (hnew.home heq)
    cases hx with
    | listen connection x controller =>
      cases controller with
      | connection | page => exact trivial
      | home => exact absurd rfl hhome
    | nextController page home => exact absurd rfl hhome
    | navigateToProfile home profile => exact ho.elim

/-- Nothing but signing out ends a session. -/
theorem Install.isSignedIn_step {s s' : Install} {e : Event} (h : s.step e = some s')
    (hout : e ≠ .signOut) (hs : s.session.isSignedIn = true) : s'.session.isSignedIn = true := by
  rcases Install.step_cases h with ⟨id, call, r, authResult, error, -, -, ha⟩ |
    ⟨id, call, o, -, -, rfl⟩ | ⟨rfl, -⟩ | ⟨a, -, -, hsession, -⟩ | ⟨-, hsession, -, -⟩
  · rw [(Install.apply_eq_some ha).1, complete_session]
    exact hs
  · rfl
  · exact absurd rfl hout
  · rw [hsession]
    exact hs
  · rw [hsession]
    exact hs

theorem isSignedIn_step {s s' : Screens} {e : ScreensEvent} (hs : s.Ordered)
    (hout : e ≠ .signOut) (h : s.step e = some s')
    (hsigned : s.install.session.isSignedIn = true) : s'.install.session.isSignedIn = true := by
  rcases moved_step hs.presented h with ⟨connected, -, rfl⟩ |
    ⟨-, ⟨a, ha, hinstall⟩ | ⟨-, hbehind⟩⟩
  · exact hsigned
  · refine Install.isSignedIn_step hinstall ?_ hsigned
    rintro rfl
    cases e with
    | signOut => exact hout rfl
    | app a accepted =>
      obtain rfl := Option.some.inj ha
      exact absurd h (Option.some_ne_none _).symm
    | _ => simp [ScreensEvent.event?] at ha
  · rw [hbehind.session]
    exact hsigned

/-- Without a session, whatever was opened from Home is covered. -/
structure Screens.Guarded (s : Screens) : Prop where
  ordered : s.Ordered
  covered : s.install.session.isSignedIn = false →
    Covered rules (fun o ↦ o.screen.IsPublic) s.window

theorem guarded_launch {s : Screens} (connected : Bool) (h : s.unwrappedNil = false) :
    (s.launch connected).Guarded where
  ordered := ordered_launch connected h
  covered hout := by
    have hsession : s.install.session.isSignedIn = false := hout
    have hroot : Screen.IsPublic (if connected = true then s.install.session.controller
        else .connection : Controller).screen := by
      rw [Session.controller, hsession]
      cases connected <;> trivial
    exact ⟨fun o ho ↦ (List.mem_singleton.mp ho).symm ▸ hroot, Or.inl (isMain_root hroot.isMain)⟩

/-- **The step lemma**: the session ends under a page, and without a session there is no way to
Home. -/
theorem guarded_step {s s' : Screens} {e : ScreensEvent} (h : s.Guarded)
    (hstep : s.step e = some s') : s'.Guarded := by
  by_cases hout : e = .signOut
  · subst hout
    exact ⟨ordered_step h.ordered hstep, fun _ ↦ covered_signOut trivial hstep⟩
  · rcases moved_step h.ordered.presented hstep with ⟨connected, -, rfl⟩ | ⟨hm, -⟩
    · exact guarded_launch connected h.ordered.unwrappedNil
    · refine ⟨h.ordered.moved hm, fun hsigned' ↦ ?_⟩
      have hsigned : s.install.session.isSignedIn = false := by
        rw [← Bool.not_eq_true] at hsigned' ⊢
        exact mt (isSignedIn_step h.ordered hout hstep) hsigned'
      have hmoves := hm.moves
      rw [hsigned'] at hmoves
      exact (h.covered hsigned).moves keeps_public hmoves

/-- What has been opened from Home is in front only as long as somebody is signed in. -/
theorem Screens.Guarded.isSignedIn {s : Screens} {o : ViewController} (h : s.Guarded)
    (hfront : (Screens.beneathAlert s.window).front = some o) (ho : ¬o.screen.IsPublic) :
    s.install.session.isSignedIn = true := by
  by_contra hout
  have hcovered := (h.covered (Bool.not_eq_true _ ▸ hout)).moves
    (Rules.keeps_of_imp fun _ hx ↦ hx) (moves_beneathAlert h.ordered.presented)
  exact ho (hcovered.front hfront)

/-- The stack that covers the rest is on top, or under a controller of the system. -/
theorem exists_of_covered {w : Window ViewController SystemController}
    (hw : WellPresented rules w) (h : Covered rules (fun o ↦ o.screen.IsPublic) w) :
    ∃ upper l lower, w = upper ++ l :: lower ∧
      (upper = [] ∨ ∃ u d, upper = [u] ∧ u.content = .system d) ∧
      IsMain l.content ∧ ∀ o ∈ l.content.controllers, o.screen.IsPublic := by
  cases w with
  | nil => exact h.elim
  | cons l w =>
    cases hl : l.content with
    | navigation root pushed =>
      have hroot : root ∈ l.content.controllers := hl ▸ List.mem_cons_self
      exact ⟨[], l, w, rfl, Or.inl rfl, isMain_of_mem hw hroot (h.1 root hroot).isMain, h.1⟩
    | system d =>
      have hnot : ¬IsMain l.content := fun hmain ↦ hmain.1 (hl ▸ rfl)
      have hbelow := h.2.resolve_left hnot
      cases hw with
      | root hc => exact absurd hc hnot
      | @presented o c m rest ho hc hw =>
        exact ⟨[_], m, rest, rfl, Or.inr ⟨_, d, rfl, hl⟩,
          isMain_of_mem hw ho (hbelow.1 o ho).isMain, hbelow.1⟩

/-- **Without a session there is nothing to see of Home.**  In every run of the app, as long as
nobody is signed in, the user sees a stack that holds nothing but pages and the connection screen,
all the way down to its root, under one alert of the page at most: no late callback and no way back
brings up Home or anything that was opened from it. -/
theorem signed_out_in_front {install : Install} {connected : Bool} {es : List ScreensEvent}
    {t : Screens} (h : run Screens.step (.start install connected) es = some t)
    (hout : t.install.session.isSignedIn = false) :
    ∃ upper l lower, t.window = upper ++ l :: lower ∧
      (upper = [] ∨ ∃ u d, upper = [u] ∧ u.content = .system d) ∧
      IsMain l.content ∧ ∀ o ∈ l.content.controllers, o.screen.IsPublic := by
  have ht : t.Guarded :=
    run_preserves (fun _ _ _ hs hstep ↦ guarded_step hs hstep) (guarded_launch connected rfl) h
  exact exists_of_covered ht.ordered.presented (ht.covered hout)

/-- A user signs out with a picture on its way, and is asked whether to skip signing in. -/
def signingOut : List ScreensEvent :=
  [.navigateToProfile, .signOut, .photoOutput ⟨0, .home⟩ (some []) true, .skipBtn]

theorem signed_out_in_front_signingOut :
    ∃ t, run Screens.step (.start signedInInstall true) signingOut = some t ∧
      t.install.session.isSignedIn = false ∧ ∃ upper l lower, t.window = upper ++ l :: lower ∧
        (upper = [] ∨ ∃ u d, upper = [u] ∧ u.content = .system d) ∧
        IsMain l.content ∧ ∀ o ∈ l.content.controllers, o.screen.IsPublic := by
  obtain ⟨t, ht, hout⟩ : ∃ t, run Screens.step (.start signedInInstall true) signingOut = some t ∧
      t.install.session.isSignedIn = false := ⟨_, rfl, rfl⟩
  exact ⟨t, ht, hout, signed_out_in_front ht hout⟩

end LandCap
