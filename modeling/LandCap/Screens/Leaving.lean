import LandCap.Screens.Linked

/-!
# Leaving a screen

What comes to the front when a screen is left.  A photo and what was made of it are left for the
stack the picture was taken on, with the Home that took it (`leaves_for_home`), and there is no
screen that the user cannot leave (`exists_way_back`).  Signing out leaves everything for good:
until the app is started again, no screen that was there before comes to the front
(`signed_out_stays_hidden`).  They are covered, not closed, and nothing the code dismisses uncovers
them.
-/

set_option autoImplicit false

namespace LandCap

open Presentation Runs

/-- An event that neither starts the app nor belongs to a login flow. -/
theorem act_of_step {s s' : Screens} {e : ScreensEvent}
    (hlaunch : ∀ connected, e ≠ .didFinishLaunching connected)
    (happ : ∀ a accepted, e ≠ .app a accepted)
    (h : s.step e = some s') : s.act e = some s' := by
  have hite : s.step e = if s.install.trapped then none else s.act e := by
    cases e with
    | didFinishLaunching connected => exact absurd rfl (hlaunch connected)
    | app a accepted => exact absurd rfl (happ a accepted)
    | _ => rfl
  rw [hite] at h
  split at h
  · exact absurd h (Option.some_ne_none _).symm
  · exact h

/-! ## Back to Home -/

/-- The Home that a screen remembers. -/
def Screen.homeController : Screen → Option ℕ
  | .photo homeController _ => some homeController
  | .info homeController _ => homeController
  | _ => none

/-- The level that comes to the front holds the Home; it and what lies beneath were there before,
and `pushed` has been pushed on it. -/
def Screens.LeavesFor (s s' : Screens) (home : ℕ) (pushed : Option Screen) : Prop :=
  ∃ m rest, m :: rest <:+ s.window ∧ ⟨home, .home⟩ ∈ m.content.controllers ∧ IsMain m.content ∧
    match pushed with
    | none => s'.window = m :: rest
    | some screen =>
      s'.window = { m with content := m.content.push ⟨s.made, screen⟩ } :: rest

/-- What is pushed when a screen is left. -/
def ScreensEvent.pushed : ScreensEvent → Option Screen
  | .showProfile => some .profile
  | _ => none

/-- The events by which the user leaves a photo or what was made of it. -/
def ScreensEvent.Leaves : ScreensEvent → Prop
  | .cancelPhoto | .cancelInfo | .morePhotos | .showProfile => True
  | _ => False

/-- An `InfoController` in front has no alert over it. -/
theorem beneathAlert_of_front {w : Window ViewController SystemController} {o : ViewController}
    (h : w.front = some o) : Screens.beneathAlert w = w := by
  rw [Screens.beneathAlert.eq_def]
  split
  · exact absurd h (by simp [Window.front, Content.top])
  · rfl

/-- An `InfoController`, under an alert or not, is left for the Home it remembers. -/
theorem leavesFor_dismissPresenting {s : Screens} {w : Window ViewController SystemController}
    {info : ℕ} {homeController : Option ℕ} {imageData : Option Data} (hw : WellPresented rules w)
    (hsuffix : w <:+ s.window)
    (hfront : w.front = some ⟨info, .info homeController imageData⟩) :
    ∃ home, homeController = some home ∧
      s.LeavesFor { s with window := w.dismissPresenting } home none := by
  obtain ⟨home, m, rest, rfl, hwindow, hbelow, hhome, hmain⟩ := dismissPresenting_eq hw hfront
  exact ⟨home, rfl, m, rest, hbelow.trans hsuffix, hhome, hmain, hwindow⟩

theorem leavesFor_act {s s' : Screens} {e : ScreensEvent} (hw : WellPresented rules s.window)
    (he : e.Leaves) (h : s.act e = some s') :
    ∃ o home, (Screens.beneathAlert s.window).front = some o ∧
      o.screen.homeController = some home ∧ s.LeavesFor s' home e.pushed ∧
      s'.unwrappedNil = s.unwrappedNil := by
  have hbeneath := presented_beneathAlert hw
  cases e with
  | cancelPhoto =>
    rw [Screens.act] at h
    split at h
    · rename_i photo home imageData hfront
      obtain rfl := Option.some.inj h
      obtain ⟨l, rest, heq, -, hmem⟩ := exists_of_front hfront
      rw [heq] at hw
      obtain ⟨rfl, m, rest, rfl, hhome, hmain⟩ := photo_beneath hw hmem
      rw [beneathAlert_of_front hfront]
      refine ⟨_, home, hfront, rfl, ⟨m, rest, ?_, hhome, hmain, ?_⟩, rfl⟩
      · rw [heq]
        exact List.suffix_cons _ _
      · show Window.dismiss s.window = _
        rw [heq]
        rfl
    · exact absurd h (Option.some_ne_none _).symm
  | cancelInfo =>
    rw [Screens.act] at h
    split at h
    · rename_i info homeController imageData hfront
      obtain rfl := Option.some.inj h
      obtain ⟨home, rfl, hleaves⟩ := leavesFor_dismissPresenting hw List.suffix_rfl hfront
      rw [beneathAlert_of_front hfront]
      exact ⟨_, home, hfront, rfl, hleaves, rfl⟩
    · exact absurd h (Option.some_ne_none _).symm
  | morePhotos =>
    rw [Screens.act] at h
    split at h
    · rename_i info homeController imageData hfront
      obtain rfl := Option.some.inj h
      obtain ⟨home, rfl, hleaves⟩ :=
        leavesFor_dismissPresenting hbeneath (beneathAlert_suffix _) hfront
      exact ⟨_, home, hfront, rfl, hleaves, rfl⟩
    · exact absurd h (Option.some_ne_none _).symm
  | showProfile =>
    rw [Screens.act] at h
    split at h
    · rename_i info homeController imageData hfront
      obtain ⟨home, rfl, hweak⟩ := weak_dismissPresenting s hbeneath hfront
      simp only [Option.bind_some, hweak] at h
      obtain rfl := Option.some.inj h
      obtain ⟨home', m, rest, heq, hwindow, hsuffix, hhome, hmain⟩ :=
        dismissPresenting_eq hbeneath hfront
      obtain rfl := Option.some.inj heq
      refine ⟨_, home, hfront, rfl,
        ⟨m, rest, hsuffix.trans (beneathAlert_suffix _), hhome, hmain, ?_⟩, rfl⟩
      show Window.push _ _ (Window.dismissPresenting (Screens.beneathAlert s.window)) = _
      rw [hwindow, Window.push, if_pos hhome]
    · exact absurd h (Option.some_ne_none _).symm
  | _ => exact he.elim

/-- **A photo is left for its Home.**  Whatever has happened, leaving a photo or what was made of it
brings the stack to the front that holds the Home the picture was taken on, and leaves this stack
and everything beneath it as it is, but for the profile the user has asked for.  An alert that lies
over the screen goes with it. -/
theorem leaves_for_home {install : Install} {connected : Bool} {es : List ScreensEvent}
    {s s' : Screens} {e : ScreensEvent}
    (h : run Screens.step (.start install connected) es = some s) (he : e.Leaves)
    (hstep : s.step e = some s') :
    ∃ o home, (Screens.beneathAlert s.window).front = some o ∧
      o.screen.homeController = some home ∧ s.LeavesFor s' home e.pushed ∧
      s'.unwrappedNil = false := by
  have hs := ordered_run h
  have hact : s.act e = some s' :=
    act_of_step (by rintro connected rfl; exact he) (by rintro a accepted rfl; exact he) hstep
  obtain ⟨o, home, ho, hhome, hleaves, hnil⟩ := leavesFor_act hs.presented he hact
  exact ⟨o, home, ho, hhome, hleaves, hnil.trans hs.unwrappedNil⟩

/-- The picture has been saved, and the user asks for the profile with an alert still open. -/
theorem leaves_for_home_processing :
    ∃ s s', run Screens.step (.start signedInInstall true) (processing ++ [.tapTooMany]) = some s ∧
      s.step .showProfile = some s' ∧
      ∃ o home, (Screens.beneathAlert s.window).front = some o ∧
        o.screen.homeController = some home ∧ s.LeavesFor s' home (some .profile) ∧
        s'.unwrappedNil = false := by
  obtain ⟨s, s', hs, hs'⟩ : ∃ s s', run Screens.step (.start signedInInstall true)
      (processing ++ [.tapTooMany]) = some s ∧ s.step .showProfile = some s' := ⟨_, _, rfl, rfl⟩
  exact ⟨s, s', hs, hs', leaves_for_home (e := .showProfile) hs trivial hs'⟩

/-! ## No way in without a way out -/

/-- The events by which the user closes what is in front. -/
def ScreensEvent.Closes : ScreensEvent → Prop
  | .closeSystem | .cancelPhoto | .cancelInfo | .closeDetail => True
  | _ => False

section Close

variable {s : Screens} {l : Level ViewController SystemController}
  {rest : Window ViewController SystemController}

/-- The user closes something, and a stack of main screens comes to the front. -/
def Screens.Returns (s : Screens) (e : ScreensEvent) : Prop :=
  e.Closes ∧ ∃ m rest, s.step e = some { s with window := m :: rest } ∧
    m :: rest <:+ s.window ∧ IsMain m.content

/-- Closing what has been presented from a main screen. -/
theorem returns_dismiss {o : ViewController} {c : Content ViewController SystemController}
    {e : ScreensEvent} (hs : s.window = ⟨some o, c⟩ :: l :: rest)
    (hw : WellPresented rules (l :: rest)) (ho : o ∈ l.content.controllers)
    (hmain : o.screen.IsMain) (he : e.Closes)
    (hstep : s.step e = some { s with window := s.window.dismiss }) : s.Returns e := by
  rw [hs] at hstep
  refine ⟨he, l, rest, hstep, ?_, isMain_of_mem hw ho hmain⟩
  rw [hs]
  exact List.suffix_cons _ _

/-- What is in front is a main screen, or can be closed for one. -/
theorem isMain_or_returns (hw : WellPresented rules s.window) (htrap : s.install.trapped = false)
    (hs : s.window = l :: rest) (hl : l.content.controllers ≠ []) :
    IsMain l.content ∨ ∃ e, s.Returns e := by
  have hstep : ∀ e, e.Closes → s.step e = s.act e := by
    intro e he
    cases e with
    | closeSystem | cancelPhoto | cancelInfo | closeDetail =>
      rw [Screens.step, htrap, if_neg Bool.false_ne_true] <;> simp
    | _ => exact he.elim
  have hpresented := hs ▸ hw
  cases hpresented with
  | root hc => exact Or.inl hc
  | @presented o c m rest ho hc hm =>
    cases hc with
    | system o hd => exact absurd rfl hl
    | signOut o hhome hc => exact Or.inl hc
    | photo home photo imageData =>
      have hact : s.act .cancelPhoto = some { s with window := s.window.dismiss } := by
        rw [Screens.act, hs]
        rfl
      exact Or.inr ⟨.cancelPhoto,
        returns_dismiss hs hm ho trivial trivial ((hstep .cancelPhoto trivial).trans hact)⟩
    | detail profile detail =>
      have hact : s.act .closeDetail = some { s with window := s.window.dismiss } := by
        rw [Screens.act, Screens.showing, hs]
        rfl
      exact Or.inr ⟨.closeDetail,
        returns_dismiss hs hm ho trivial trivial ((hstep .closeDetail trivial).trans hact)⟩
    | info photo home info imageData =>
      have hfront : s.window.front = some ⟨info, .info (some home) (some imageData)⟩ := by
        rw [hs]
        rfl
      obtain ⟨-, n, rest', -, hwindow, hsuffix, -, hmain⟩ := dismissPresenting_eq hw hfront
      have hact : s.act .cancelInfo = some { s with window := n :: rest' } := by
        rw [Screens.act, hfront, hwindow]
      exact Or.inr ⟨.cancelInfo, trivial, n, rest', (hstep .cancelInfo trivial).trans hact,
        hsuffix, hmain⟩

/-- A controller of the system is in front and is closed. -/
theorem closeSystem_step {d : SystemController} {presenter : Option ViewController}
    (htrap : s.install.trapped = false)
    (hs : s.window = ⟨presenter, .system d⟩ :: l :: rest) :
    s.step .closeSystem = some { s with window := l :: rest } := by
  rw [Screens.step, htrap, if_neg Bool.false_ne_true, Screens.act, hs]
  · rfl
  all_goals simp

end Close

/-- **Every screen can be left.**  Whatever has happened, the user gets back to a stack of main
screens by closing two things at most, an alert and the screen beneath it; this stack and all that
lies beneath is left as it was, and so is everything but the window. -/
theorem exists_way_back {install : Install} {connected : Bool} {es : List ScreensEvent}
    {s : Screens} (h : run Screens.step (.start install connected) es = some s)
    (htrap : s.install.trapped = false) :
    ∃ closing l rest, closing.length ≤ 2 ∧ (∀ e ∈ closing, e.Closes) ∧
      run Screens.step s closing = some { s with window := l :: rest } ∧
      l :: rest <:+ s.window ∧ IsMain l.content := by
  have hw := (ordered_run h).presented
  obtain ⟨l, rest, hs⟩ : ∃ l rest, s.window = l :: rest := by
    cases hs : s.window with
    | nil => exact absurd (hs ▸ hw) nofun
    | cons l rest => exact ⟨l, rest, rfl⟩
  by_cases hl : l.content.controllers = []
  · -- nothing but a controller of the system has no view controllers of its own
    obtain ⟨presenter, d, rfl⟩ : ∃ presenter d, l = ⟨presenter, .system d⟩ := by
      obtain ⟨presenter, content⟩ := l
      cases content with
      | system d => exact ⟨presenter, d, rfl⟩
      | navigation root pushed => exact absurd hl (List.cons_ne_nil root _)
    rw [hs] at hw
    cases hw with
    | root hc => exact absurd rfl hc.1
    | @presented o c m rest ho hc hm =>
      have hclosed := closeSystem_step htrap hs
      have hsuffix : m :: rest <:+ s.window := hs ▸ List.suffix_cons _ _
      rcases isMain_or_returns (s := { s with window := m :: rest }) hm htrap rfl
        (List.ne_nil_of_mem ho) with hmain | ⟨e, he, n, rest', hstep, hsuffix', hmain⟩
      · exact ⟨[.closeSystem], m, rest, by decide, by simp [ScreensEvent.Closes],
          run_cons_eq_some.mpr ⟨_, hclosed, rfl⟩, hsuffix, hmain⟩
      · have hcloses : ∀ e' ∈ [.closeSystem, e], e'.Closes :=
          List.forall_mem_cons.mpr ⟨trivial, List.forall_mem_singleton.mpr he⟩
        exact ⟨[.closeSystem, e], n, rest', le_rfl, hcloses,
          run_cons_eq_some.mpr ⟨_, hclosed, run_cons_eq_some.mpr ⟨_, hstep, rfl⟩⟩,
          hsuffix'.trans hsuffix, hmain⟩
  · rcases isMain_or_returns hw htrap hs hl with hmain | ⟨e, he, n, rest', hstep, hsuffix, hmain⟩
    · refine ⟨[], l, rest, Nat.zero_le 2, by simp, ?_, hs ▸ List.suffix_rfl, hmain⟩
      rw [← hs]
      rfl
    · exact ⟨[e], n, rest', Nat.le_succ 1, by simp [he],
        run_cons_eq_some.mpr ⟨_, hstep, rfl⟩, hsuffix, hmain⟩

/-- With the alert of a sentence too many over the `InfoController`, it takes both. -/
theorem exists_way_back_processing :
    ∃ s, run Screens.step (.start signedInInstall true) (processing ++ [.tapTooMany]) = some s ∧
      ∃ closing l rest, closing.length ≤ 2 ∧ (∀ e ∈ closing, e.Closes) ∧
        run Screens.step s closing = some { s with window := l :: rest } ∧
        l :: rest <:+ s.window ∧ IsMain l.content := by
  obtain ⟨s, hs, htrap⟩ : ∃ s, run Screens.step (.start signedInInstall true)
      (processing ++ [.tapTooMany]) = some s ∧ s.install.trapped = false := ⟨_, rfl, rfl⟩
  exact ⟨s, hs, exists_way_back hs htrap⟩

/-! ## Signing out -/

/-- The page that is presented lies on top of what was there. -/
theorem window_signOut {s s' : Screens} (h : s.step .signOut = some s') :
    s'.made = s.made + 1 ∧ ∃ o,
      s'.window = ⟨some o, .navigation ⟨s.made, .page⟩ []⟩ :: s.window := by
  have hact := act_of_step (by simp) (by simp) h
  simp only [Screens.act, Option.bind_eq_bind, Option.bind_eq_some_iff] at hact
  obtain ⟨o, ho, install, -, hact⟩ := hact
  obtain rfl := Option.some.inj hact
  obtain ⟨l, rest, hw, -, hmem⟩ := exists_of_front (showing_or ho).1
  refine ⟨rfl, o, ?_⟩
  show Window.present o _ s.window = _
  rw [hw, Window.present, if_pos hmem]

/-- And it covers it. -/
theorem covered_signOut {s s' : Screens} {N : ViewController → Prop} (hN : N ⟨s.made, .page⟩)
    (h : s.step .signOut = some s') : Covered rules N s'.window := by
  obtain ⟨-, o, hw⟩ := window_signOut h
  rw [hw]
  exact ⟨fun x hx ↦ (List.mem_singleton.mp hx).symm ▸ hN, Or.inl (isMain_root trivial)⟩

/-- What has been covered by screens numbered from `n` on stays so. -/
structure Screens.Hidden (n : ℕ) (s : Screens) : Prop where
  ordered : s.Ordered
  made : n ≤ s.made
  covered : Covered rules (fun o ↦ n ≤ o.id) s.window

theorem hidden_step {n : ℕ} {s s' : Screens} {e : ScreensEvent} (h : s.Hidden n)
    (he : ∀ connected, e ≠ .didFinishLaunching connected) (hstep : s.step e = some s') :
    s'.Hidden n := by
  rcases moved_step h.ordered.presented hstep with ⟨connected, rfl, -⟩ | ⟨hm, -⟩
  · exact absurd rfl (he connected)
  · exact ⟨h.ordered.moved hm, h.made.trans hm.made,
      h.covered.moves (Rules.keeps_of_imp fun _ ho ↦ h.made.trans ho.le) hm.moves⟩

/-- **Signing out is for good.**  From the moment the user signs out until the app is started again,
no screen that was there before is seen again, whatever happens in between: whoever signs in next
does not come upon the screens of the one before. -/
theorem signed_out_stays_hidden {install : Install} {connected : Bool}
    {es es' : List ScreensEvent} {s s' t : Screens} {o : ViewController}
    (h : run Screens.step (.start install connected) es = some s)
    (hout : s.step .signOut = some s') (h' : run Screens.step s' es' = some t)
    (hes' : ∀ connected, .didFinishLaunching connected ∉ es') (ho : t.window.front = some o) :
    o ∉ s.window.controllers := by
  have hs := ordered_run h
  have hmade : s.made ≤ s'.made := (window_signOut hout).1.ge.trans' (Nat.le_succ s.made)
  have hmeets : Meets Screens.step (fun _ e ↦ ∀ connected, e ≠ .didFinishLaunching connected)
      s' es' := Meets.of_mem fun e he connected heq ↦ hes' connected (heq ▸ he)
  have ht : t.Hidden s.made := run_invariant (fun _ _ _ hs he hstep ↦ hidden_step hs he hstep)
    ⟨ordered_step hs hout, hmade, covered_signOut le_rfl hout⟩ hmeets h'
  intro hold
  exact absurd (hs.numbered o hold) (not_lt.mpr (ht.covered.front ho))

/-- A guest enters where somebody has signed out. -/
def enteringAsGuest : List ScreensEvent :=
  [.skipBtn, .app (.tap 0 .skipOkay) true, .app (.respond 0 (some guestAccount) none) true,
    .app (.deliver 0 0) true, .app (.deliver 0 0) true]

theorem signed_out_stays_hidden_enteringAsGuest :
    ∃ s s' t o, run Screens.step (.start signedInInstall true) [.navigateToProfile] = some s ∧
      s.step .signOut = some s' ∧ run Screens.step s' enteringAsGuest = some t ∧
      t.window.front = some o ∧ o ∉ s.window.controllers := by
  obtain ⟨s, s', t, o, hs, hs', ht, ho⟩ : ∃ s s' t o,
      run Screens.step (.start signedInInstall true) [.navigateToProfile] = some s ∧
      s.step .signOut = some s' ∧ run Screens.step s' enteringAsGuest = some t ∧
      t.window.front = some o := ⟨_, _, _, _, rfl, rfl, rfl, rfl⟩
  exact ⟨s, s', t, o, hs, hs', ht, ho,
    signed_out_stays_hidden hs hs' ht (by simp [enteringAsGuest]) ho⟩

end LandCap
