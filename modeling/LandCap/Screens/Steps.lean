import LandCap.Screens.Window

/-!
# What an event does

Here the events are gone through, one lemma for each.  What a screen does moves the window by the
rules and leaves the install alone, unless it asks the cloud or stops the app (`Acted`); what the
login flows do moves the window by the rules too (`Moved`), and a Home that comes with it comes with
somebody signed in.
`moved_step` puts this together, and `ordered_run` is what it means for a run: the levels always lie
on each other as the rules have it.
-/

set_option autoImplicit false

namespace LandCap

open Presentation Runs

/-! ## What a screen does -/

/-- A view controller made between two states, and a Home only where somebody is signed in. -/
structure IsNew (signedIn : Bool) (m n : ℕ) (o : ViewController) : Prop where
  le : m ≤ o.id
  lt : o.id < n
  home : o.screen = .home → signedIn = true

/-- The window has moved by the rules, what has come is new, and no nil has been unwrapped. -/
structure Screens.Moved (s s' : Screens) : Prop where
  made : s.made ≤ s'.made
  moves : Moves rules (IsNew s'.install.session.isSignedIn s.made s'.made) s.window s'.window
  unwrappedNil : s'.unwrappedNil = s.unwrappedNil

/-- The other install has asked the cloud or has been stopped, and is this one otherwise. -/
def Install.Behind (install other : Install) : Prop :=
  ∃ cloud trapped, other = { install with cloud := cloud, trapped := trapped }

theorem Install.Behind.refl (install : Install) : install.Behind install := ⟨_, _, rfl⟩

theorem Install.Behind.trans {i j k : Install} (h : i.Behind j) (h' : j.Behind k) :
    i.Behind k := by
  obtain ⟨cloud, trapped, rfl⟩ := h
  obtain ⟨cloud', trapped', rfl⟩ := h'
  exact ⟨cloud', trapped', rfl⟩

theorem Install.Behind.session {i j : Install} (h : i.Behind j) : j.session = i.session := by
  obtain ⟨cloud, trapped, rfl⟩ := h
  rfl

/-- And nothing has happened to the install, but that a screen may have asked the cloud or stopped
the app. -/
structure Screens.Acted (s s' : Screens) : Prop extends s.Moved s' where
  install : s.install.Behind s'.install

section Acted

variable {s s' t : Screens} {o : ViewController} {screen : Screen}

theorem Screens.Acted.refl (s : Screens) : s.Acted s := ⟨⟨le_rfl, .refl, rfl⟩, .refl _⟩

theorem Screens.Acted.trans (h : s.Acted s') (h' : s'.Acted t) : s.Acted t := by
  have hsession := h'.install.session
  have hmoves := h.moves
  rw [← hsession] at hmoves
  refine ⟨⟨h.made.trans h'.made, ?_, h'.unwrappedNil.trans h.unwrappedNil⟩,
    h.install.trans h'.install⟩
  exact (hmoves.mono fun _ ho ↦ ⟨ho.le, ho.lt.trans_le h'.made, ho.home⟩).trans
    (h'.moves.mono fun _ ho ↦ ⟨h.made.trans ho.le, ho.lt, ho.home⟩)

theorem Screens.Acted.of_moves {w : Window ViewController SystemController}
    (h : Moves rules (IsNew s.install.session.isSignedIn s.made s.made) s.window w) :
    s.Acted { s with window := w } :=
  ⟨⟨le_rfl, h, rfl⟩, .refl _⟩

theorem acted_presentNew (h : Presents o (.navigation ⟨s.made, screen⟩ []))
    (hhome : screen = .home → s.install.session.isSignedIn = true) :
    s.Acted (s.presentNew o screen) := by
  refine ⟨⟨Nat.le_succ s.made, .present h fun x hx ↦ ?_, rfl⟩, .refl _⟩
  obtain rfl := List.mem_singleton.mp hx
  exact ⟨le_rfl, Nat.lt_succ_self s.made, hhome⟩

theorem acted_pushNew (h : Pushes o ⟨s.made, screen⟩)
    (hhome : screen = .home → s.install.session.isSignedIn = true) :
    s.Acted (s.pushNew o screen) :=
  ⟨⟨Nat.le_succ s.made, .push h ⟨le_rfl, Nat.lt_succ_self s.made, hhome⟩, rfl⟩, .refl _⟩

theorem acted_presentSystem {d : SystemController} (h : o.screen.PresentsSystem d) :
    s.Acted (s.presentSystem o d) :=
  .of_moves (.present (.system o h) fun _ hx ↦ absurd hx List.not_mem_nil)

theorem acted_stop (s : Screens) : s.Acted s.stop :=
  ⟨⟨le_rfl, .refl, rfl⟩, ⟨_, _, rfl⟩⟩

/-- A call is something for the cloud. -/
theorem acted_call {id : ℕ} {c : Call} (h : s.call id c = some s') :
    s.Acted s' ∧ s'.window = s.window := by
  obtain ⟨install, hinstall, rfl⟩ := Option.map_eq_some_iff.mp h
  obtain ⟨cloud, -, rfl⟩ := Option.map_eq_some_iff.mp hinstall
  exact ⟨⟨⟨le_rfl, .refl, rfl⟩, ⟨_, _, rfl⟩⟩, rfl⟩

theorem acted_process {home : ℕ} (imageData : Data) (accepted : Bool) :
    s.Acted (s.process ⟨home, .home⟩ imageData accepted) := by
  rw [Screens.process]
  split
  · exact acted_presentNew (.photo home s.made imageData) (by simp)
  · exact .refl s

/-- The app opens Home where somebody is signed in. -/
theorem Session.isSignedIn_of_controller {session : Session}
    (h : session.controller.screen = .home) : session.isSignedIn = true := by
  rw [Session.controller] at h
  split at h
  · assumption
  · simp [Controller.screen] at h

theorem showing_eq_some (h : s.showing screen = some o) :
    s.window.front = some o ∧ o.screen = screen := by
  rw [Screens.showing, Option.filter_eq_some_iff] at h
  exact ⟨h.1, of_decide_eq_true h.2⟩

/-- What is done on a screen of a class is done on the one the user sees. -/
theorem exists_of_showing {f : ViewController → Screens}
    (h : (s.showing screen).map f = some s') :
    ∃ id, s.window.front = some ⟨id, screen⟩ ∧ s' = f ⟨id, screen⟩ := by
  obtain ⟨⟨id, screen'⟩, hshowing, rfl⟩ := Option.map_eq_some_iff.mp h
  obtain ⟨hfront, rfl⟩ := showing_eq_some hshowing
  exact ⟨id, hfront, rfl⟩

/-- Home or the profile is in front. -/
theorem showing_or (h : (s.showing .home).or (s.showing .profile) = some o) :
    s.window.front = some o ∧ (o.screen = .home ∨ o.screen = .profile) := by
  rw [Option.or_eq_some_iff] at h
  rcases h with h | ⟨-, h⟩
  · exact (showing_eq_some h).imp_right Or.inl
  · exact (showing_eq_some h).imp_right Or.inr

/-! ### Each event -/

theorem acted_listenForConnection {connection : ViewController} {connected : Bool}
    (h : s.act (.listenForConnection connection connected) = some s') : s.Acted s' := by
  obtain ⟨id, screen⟩ := connection
  rw [Screens.act] at h
  split at h
  · rename_i hc
    obtain rfl : screen = .connection := hc
    obtain rfl := Option.some.inj h
    split
    · exact acted_pushNew (.listen id s.made _) Session.isSignedIn_of_controller
    · exact .refl s
  · exact absurd h nofun

theorem acted_closeSystem (h : s.act .closeSystem = some s') : s.Acted s' := by
  rw [Screens.act] at h
  split at h
  · rename_i hwindow
    obtain rfl := Option.some.inj h
    exact .of_moves (moves_closeSystem hwindow)
  · exact absurd h nofun

theorem acted_navigateToProfile (h : s.act .navigateToProfile = some s') : s.Acted s' := by
  obtain ⟨home, -, rfl⟩ := exists_of_showing h
  split
  · exact .refl s
  · exact acted_pushNew (.navigateToProfile home s.made) (by simp)

theorem acted_back (h : s.act .back = some s') : s.Acted s' := by
  obtain ⟨profile, hfront, rfl⟩ := exists_of_showing h
  obtain ⟨l, rest, heq, htop, -⟩ := exists_of_front hfront
  refine .of_moves ?_
  rw [heq]
  exact .single (.pop htop rfl)

theorem acted_pickImage (h : s.act .pickImage = some s') : s.Acted s' := by
  obtain ⟨o, ho, rfl⟩ := Option.map_eq_some_iff.mp h
  obtain ⟨-, hscreen⟩ := showing_or ho
  refine acted_presentSystem ?_
  rcases hscreen with hscreen | hscreen <;> rw [hscreen] <;> trivial

theorem acted_didFinishPicking {imageData : Option Data} {accepted : Bool}
    (h : s.act (.didFinishPicking imageData accepted) = some s') : s.Acted s' := by
  rw [Screens.act] at h
  split at h
  · rename_i o rest hwindow
    have hclosed : s.Acted { s with window := s.window.dismiss } :=
      .of_moves (moves_closeSystem hwindow)
    obtain ⟨id, screen⟩ := o
    split at h
    · rename_i data hscreen
      obtain rfl : screen = .home := hscreen
      obtain rfl := Option.some.inj h
      exact hclosed.trans (acted_process data accepted)
    · obtain rfl := Option.some.inj h
      exact hclosed
  · exact absurd h nofun

theorem acted_photoOutput {home : ViewController} {imageData : Option Data} {accepted : Bool}
    (h : s.act (.photoOutput home imageData accepted) = some s') : s.Acted s' := by
  obtain ⟨id, screen⟩ := home
  rw [Screens.act] at h
  split at h
  · rename_i hc
    obtain rfl : screen = .home := hc
    obtain rfl := Option.some.inj h
    cases imageData with
    | none => exact .refl s
    | some data => exact acted_process data accepted
  · exact absurd h nofun

theorem acted_cancelPhoto (h : s.act .cancelPhoto = some s') : s.Acted s' := by
  rw [Screens.act] at h
  split at h
  · rename_i hfront
    obtain rfl := Option.some.inj h
    exact .of_moves (moves_dismiss hfront not_false (by simp))
  · exact absurd h nofun

theorem acted_processHandler {id : ℕ} (h : s.act (.processHandler id) = some s') :
    s.Acted s' := by
  rw [Screens.act] at h
  split at h
  · split at h
    · exact (acted_call h).1
    · obtain rfl := Option.some.inj h
      exact acted_stop s
  · exact absurd h (Option.some_ne_none _).symm

/-- What the detector's answer leads to has the image of the photo. -/
theorem imageData_of_presented {UIImage : Type} {imageData : Data}
    {landmarks : Option (List VisionCloudLandmark)} {error : Option String}
    {controller : InfoController UIImage}
    (h : (PhotoController.detected imageData landmarks error).presented = some controller) :
    controller.imageData = some imageData := by
  rw [PhotoController.detected.eq_def] at h
  cases landmarks with
  | none => exact absurd h nofun
  | some landmarks =>
    cases landmarks with
    | nil => exact absurd h nofun
    | cons landmark landmarks =>
      obtain rfl := Option.some.inj h
      rfl

/-- An `InfoController` is presented for a photo that is on the topmost level, next to its Home. -/
theorem acted_presentInfo {photo home : ℕ} {imageData : Data} (hw : WellPresented rules s.window) :
    s.Acted (s.presentNew ⟨photo, .photo home imageData⟩
      (.info (s.weak home) (some imageData))) := by
  by_cases hmem : ∃ l rest, s.window = l :: rest ∧
      ⟨photo, .photo home imageData⟩ ∈ l.content.controllers
  · obtain ⟨l, rest, heq, hmem⟩ := hmem
    have hhome : s.weak home = some home := by
      rw [heq] at hw
      obtain ⟨rfl, m, rest, rfl, hhome, -⟩ := photo_beneath hw hmem
      refine if_pos ?_
      rw [heq, Window.mem_controllers_cons, Window.mem_controllers_cons]
      exact Or.inr (Or.inl hhome)
    rw [hhome]
    exact acted_presentNew (.info photo home s.made imageData) (by simp)
  · refine ⟨⟨Nat.le_succ s.made, ?_, rfl⟩, .refl _⟩
    rw [Screens.presentNew]
    cases heq : s.window with
    | nil => exact .refl
    | cons l rest =>
      show Moves rules _ _ (Window.present _ _ (l :: rest))
      rw [Window.present, if_neg fun ho ↦ hmem ⟨l, rest, heq, ho⟩]

/-- An answer of the detector presents an `InfoController` at most. -/
theorem acted_detected {photo : ViewController} {landmarks : Option (List VisionCloudLandmark)}
    {error : Option String} {accepted : Bool} (hw : WellPresented rules s.window)
    (h : s.act (.detected photo landmarks error accepted) = some s') : s.Acted s' := by
  obtain ⟨id, screen⟩ := photo
  rw [Screens.act] at h
  split at h
  · rename_i home imageData hscreen
    obtain rfl : screen = .photo home imageData := hscreen
    obtain rfl := Option.some.inj h
    cases hanswer : (PhotoController.detected imageData landmarks error :
        PhotoController.Detected Unit).presented with
    | none => exact .refl s
    | some infoController =>
      cases accepted with
      | false => exact .refl s
      | true =>
        rw [Option.elim, if_pos rfl, imageData_of_presented hanswer]
        exact acted_presentInfo hw
  · exact absurd h nofun

theorem acted_save (h : s.act .save = some s') : s.Acted s' := by
  rw [Screens.act] at h
  split at h
  · split at h
    · obtain rfl := Option.some.inj h
      exact .refl s
    · obtain rfl := Option.some.inj h
      exact acted_stop s
  · exact absurd h nofun

theorem acted_tapTooMany (h : s.act .tapTooMany = some s') : s.Acted s' := by
  rw [Screens.act] at h
  split at h
  · obtain rfl := Option.some.inj h
    exact acted_presentSystem trivial
  · exact absurd h nofun

theorem acted_cancelInfo (hw : WellPresented rules s.window)
    (h : s.act .cancelInfo = some s') : s.Acted s' := by
  rw [Screens.act] at h
  split at h
  · rename_i hfront
    obtain rfl := Option.some.inj h
    exact .of_moves (moves_dismissPresenting hw hfront)
  · exact absurd h nofun

theorem acted_morePhotos (hw : WellPresented rules s.window)
    (h : s.act .morePhotos = some s') : s.Acted s' := by
  rw [Screens.act] at h
  split at h
  · rename_i hfront
    obtain rfl := Option.some.inj h
    exact .of_moves ((moves_beneathAlert hw).trans
      (moves_dismissPresenting (presented_beneathAlert hw) hfront))
  · exact absurd h nofun

/-- Wherever `InfoController` looks for its Home once it has been left, it finds it. -/
theorem weak_dismissPresenting (s : Screens) {w : Window ViewController SystemController}
    {info : ℕ} {homeController : Option ℕ} {imageData : Option Data} (hw : WellPresented rules w)
    (h : w.front = some ⟨info, .info homeController imageData⟩) :
    ∃ home, homeController = some home ∧
      Screens.weak { s with window := w.dismissPresenting } home = some home := by
  obtain ⟨home, m, rest, rfl, hwindow, -, hhome, -⟩ := dismissPresenting_eq hw h
  refine ⟨home, rfl, if_pos ?_⟩
  rw [hwindow]
  exact Window.mem_controllers_cons.mpr (Or.inl hhome)

theorem acted_showProfile (hw : WellPresented rules s.window)
    (h : s.act .showProfile = some s') : s.Acted s' := by
  rw [Screens.act] at h
  split at h
  · rename_i hfront
    have hbeneath := presented_beneathAlert hw
    obtain ⟨home, rfl, hweak⟩ := weak_dismissPresenting s hbeneath hfront
    simp only [Option.bind_some, hweak] at h
    obtain rfl := Option.some.inj h
    have hleft : s.Acted { s with
        window := (Screens.beneathAlert s.window).dismissPresenting } :=
      .of_moves ((moves_beneathAlert hw).trans (moves_dismissPresenting hbeneath hfront))
    exact hleft.trans (acted_pushNew (.navigateToProfile home s.made) (by simp))
  · exact absurd h nofun

theorem acted_trashHandler {id : ℕ} {userImage : UserImage}
    (h : s.act (.trashHandler id userImage) = some s') : s.Acted s' := by
  rw [Screens.act] at h
  split at h
  · rename_i hfront
    obtain ⟨t, ht, rfl⟩ := Option.map_eq_some_iff.mp h
    obtain ⟨hcalled, hwindow⟩ := acted_call ht
    rw [← hwindow] at hfront
    exact hcalled.trans (.of_moves (moves_dismiss_detail hfront))
  · exact absurd h (Option.some_ne_none _).symm

theorem acted_trap {o : ViewController} (h : s.act (.trap o) = some s') : s.Acted s' := by
  rw [Screens.act] at h
  split at h
  · obtain rfl := Option.some.inj h
    exact acted_stop s
  · exact absurd h (Option.some_ne_none _).symm

theorem acted_savedImage {detail : ViewController} {accepted : Bool}
    (h : s.act (.savedImage detail accepted) = some s') : s.Acted s' := by
  obtain ⟨id, screen⟩ := detail
  rw [Screens.act] at h
  split at h
  · rename_i hc
    obtain rfl : screen = .detail := hc
    obtain rfl := Option.some.inj h
    split
    · exact acted_presentSystem trivial
    · exact .refl s
  · exact absurd h (Option.some_ne_none _).symm

/-- **What a screen does**, whatever happens but a sign-out: the window moves by the rules, and
nothing happens to the session or to the login flows. -/
theorem acted_act {e : ScreensEvent} (hw : WellPresented rules s.window) (hout : e ≠ .signOut)
    (h : s.act e = some s') : s.Acted s' := by
  cases e with
  | didFinishLaunching connected => exact absurd h nofun
  | app e accepted => exact absurd h nofun
  | signOut => exact absurd rfl hout
  | listenForConnection connection connected => exact acted_listenForConnection h
  | closeSystem => exact acted_closeSystem h
  | navigateToProfile => exact acted_navigateToProfile h
  | back => exact acted_back h
  | pickImage => exact acted_pickImage h
  | didFinishPicking imageData accepted => exact acted_didFinishPicking h
  | photoOutput home imageData accepted => exact acted_photoOutput h
  | cancelPhoto => exact acted_cancelPhoto h
  | processHandler id => exact acted_processHandler h
  | detected photo landmarks error accepted => exact acted_detected hw h
  | save => exact acted_save h
  | tapTooMany => exact acted_tapTooMany h
  | cancelInfo => exact acted_cancelInfo hw h
  | morePhotos => exact acted_morePhotos hw h
  | showProfile => exact acted_showProfile hw h
  | trashHandler id userImage => exact acted_trashHandler h
  | savedImage detail accepted => exact acted_savedImage h
  | trap o => exact acted_trap h
  | forgotPasswordBtn | skipBtn | shareHandler =>
    obtain ⟨o, -, rfl⟩ := exists_of_showing h
    exact acted_presentSystem trivial
  | didSelectItem =>
    obtain ⟨profile, -, rfl⟩ := exists_of_showing h
    exact acted_presentNew (.detail profile s.made) (by simp)
  | closeDetail =>
    obtain ⟨detail, hfront, rfl⟩ := exists_of_showing h
    exact .of_moves (moves_dismiss hfront not_false (by simp))

/-- Signing out presents a page. -/
theorem moved_signOut (h : s.act .signOut = some s') :
    s.Moved s' ∧ s.install.step .signOut = some s'.install := by
  simp only [Screens.act, Option.bind_eq_bind, Option.bind_eq_some_iff] at h
  obtain ⟨o, ho, install, hinstall, h⟩ := h
  obtain rfl := Option.some.inj h
  have hpage : Presents o (.navigation ⟨s.made, .page⟩ []) :=
    .signOut o (showing_or ho).2 (isMain_root trivial)
  have hpresented : ({ s with install := install } : Screens).Acted
      (Screens.presentNew { s with install := install } o .page) :=
    acted_presentNew hpage (by simp)
  exact ⟨⟨hpresented.made, hpresented.moves, rfl⟩, hinstall⟩

/-! ### The events of the install -/

/-- The block that opens Home has signed the user in. -/
theorem Install.isSignedIn_of_opened {s s' : Install} {e : Event} (h : s.step e = some s')
    (hopened : s.opened.length < s'.opened.length) : s'.session.isSignedIn = true := by
  cases Install.stepped h with
  | enter id call o ho => rfl
  | handle id call r authResult error s' hr ha =>
    obtain ⟨cloud, -, rfl⟩ := Option.map_eq_some_iff.mp ha
    exact absurd hopened (lt_irrefl _)
  | tap | respond | signOut | relaunch | cloud => exact absurd hopened (lt_irrefl _)

/-- A handler presents its alerts on its page. -/
theorem acted_alerts (page : ℕ) (ns : List ℕ) (s : Screens) :
    s.Acted (ns.foldl (fun s' _ ↦ s'.presentSystem ⟨page, .page⟩ .notice) s) ∧
      (ns.foldl (fun s' _ ↦ s'.presentSystem ⟨page, .page⟩ .notice) s).install = s.install := by
  induction ns generalizing s with
  | nil => exact ⟨.refl s, rfl⟩
  | cons n ns ih =>
    have hnotice : s.Acted (s.presentSystem ⟨page, .page⟩ .notice) := acted_presentSystem trivial
    exact ⟨hnotice.trans (ih _).1, (ih _).2⟩

/-- And `nextController` pushes Home there. -/
theorem moved_after {install : Install} {id call : ℕ} (accepted : Bool)
    (h : s.install.step (.deliver id call) = some install) :
    s.Moved (s.after install id accepted) ∧ (s.after install id accepted).install = install := by
  have hopens : ∀ t : Screens, ({ s with install := install } : Screens).Acted t →
      t.install = install →
      s.Moved (if s.install.opened.length < install.opened.length then
          t.pushNew ⟨s.flowPage id, .page⟩ .home else t) ∧
        (if s.install.opened.length < install.opened.length then
          t.pushNew ⟨s.flowPage id, .page⟩ .home else t).install = install := by
    intro t ht hinstall
    split
    · rename_i hopened
      have hsigned := Install.isSignedIn_of_opened h hopened
      rw [← hinstall] at hsigned
      have hpushed := ht.trans (acted_pushNew (.nextController (s.flowPage id) t.made)
        fun _ ↦ hsigned)
      exact ⟨⟨hpushed.made, hpushed.moves, hpushed.unwrappedNil⟩, hinstall⟩
    · exact ⟨⟨ht.made, ht.moves, ht.unwrappedNil⟩, hinstall⟩
  obtain ⟨halerts, hinstall⟩ := acted_alerts (s.flowPage id) (List.range
    (if accepted then install.alerts.length - s.install.alerts.length else 0))
    { s with install := install }
  exact hopens _ halerts hinstall

theorem moved_app {e : Event} {accepted : Bool} (h : s.app accepted e = some s') :
    s.Moved s' ∧ s.install.step e = some s'.install := by
  rw [Screens.app.eq_def] at h
  split at h
  · simp only [Option.bind_eq_bind, Option.bind_eq_some_iff] at h
    obtain ⟨⟨page, window⟩, htapped, install, hinstall, h⟩ := h
    obtain rfl := Option.some.inj h
    exact ⟨⟨le_rfl, moves_tapped htapped, rfl⟩, hinstall⟩
  · obtain ⟨install, hinstall, rfl⟩ := Option.map_eq_some_iff.mp h
    obtain ⟨hm, heq⟩ := moved_after accepted hinstall
    rw [heq]
    exact ⟨hm, hinstall⟩
  · exact absurd h nofun
  · exact absurd h nofun
  · obtain ⟨install, hinstall, rfl⟩ := Option.map_eq_some_iff.mp h
    exact ⟨⟨le_rfl, .refl, rfl⟩, hinstall⟩

end Acted

/-! ## A step -/

/-- What an event is for the install. -/
def ScreensEvent.event? : ScreensEvent → Option Event
  | .didFinishLaunching _ => some .relaunch
  | .app e _ => some e
  | .signOut => some .signOut
  | _ => none

/-- **The step lemma**: an event starts the app again, or it moves the window by the rules, and is a
step of the install or leaves its session and its flows alone. -/
theorem moved_step {s s' : Screens} {e : ScreensEvent} (hw : WellPresented rules s.window)
    (h : s.step e = some s') :
    (∃ connected, e = .didFinishLaunching connected ∧ s' = s.launch connected) ∨
      s.Moved s' ∧ ((∃ a, e.event? = some a ∧ s.install.step a = some s'.install) ∨
        e.event? = none ∧ s.install.Behind s'.install) := by
  rw [Screens.step.eq_def] at h
  split at h
  · rename_i connected
    exact Or.inl ⟨connected, rfl, (Option.some.inj h).symm⟩
  · obtain ⟨hm, hinstall⟩ := moved_app h
    exact Or.inr ⟨hm, Or.inl ⟨_, rfl, hinstall⟩⟩
  · rename_i hlaunch happ
    split at h
    · exact absurd h nofun
    · by_cases hout : e = .signOut
      · subst hout
        obtain ⟨hm, hinstall⟩ := moved_signOut h
        exact Or.inr ⟨hm, Or.inl ⟨_, rfl, hinstall⟩⟩
      · have hacted := acted_act hw hout h
        refine Or.inr ⟨hacted.toMoved, Or.inr ⟨?_, hacted.install⟩⟩
        cases e with
        | didFinishLaunching connected => exact absurd rfl (hlaunch connected)
        | app a accepted => exact absurd rfl (happ a accepted)
        | signOut => exact absurd rfl hout
        | _ => rfl

/-! ## Runs -/

/-- The levels lie on each other as the rules have it, and no `homeController` has been nil. -/
structure Screens.Ordered (s : Screens) : Prop where
  presented : WellPresented rules s.window
  numbered : ∀ o ∈ s.window.controllers, o.id < s.made
  unwrappedNil : s.unwrappedNil = false

theorem ordered_launch {s : Screens} (connected : Bool) (h : s.unwrappedNil = false) :
    (s.launch connected).Ordered where
  presented := by
    refine .root (isMain_root ?_)
    show Screen.IsMain (Controller.screen _)
    split
    · rw [Session.controller]
      split <;> trivial
    · trivial
  numbered o ho := by
    rw [Screens.launch, Window.mem_controllers_cons] at ho
    obtain rfl := List.mem_singleton.mp (ho.resolve_right List.not_mem_nil)
    exact Nat.lt_succ_self s.made
  unwrappedNil := h

theorem Screens.Ordered.moved {s s' : Screens} (h : s.Ordered) (hm : s.Moved s') :
    s'.Ordered where
  presented := h.presented.moves hm.moves
  numbered o ho := (hm.moves.mem_controllers ho).elim
    (fun hold ↦ (h.numbered o hold).trans_le hm.made) IsNew.lt
  unwrappedNil := hm.unwrappedNil.trans h.unwrappedNil

theorem ordered_step {s s' : Screens} {e : ScreensEvent} (h : s.Ordered)
    (hstep : s.step e = some s') : s'.Ordered := by
  rcases moved_step h.presented hstep with ⟨connected, -, rfl⟩ | ⟨hm, -⟩
  · exact ordered_launch connected h.unwrappedNil
  · exact h.moved hm

theorem ordered_run {install : Install} {connected : Bool} {es : List ScreensEvent} {t : Screens}
    (h : run Screens.step (.start install connected) es = some t) : t.Ordered :=
  run_preserves (fun _ _ _ hs hstep ↦ ordered_step hs hstep) (ordered_launch connected rfl) h

end LandCap
