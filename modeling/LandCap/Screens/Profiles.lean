import LandCap.Screens.Session

/-!
# Whose profile it is

A profile that comes on the screen opens the database of the current user, and keeps it as
`capDatabase`: the name and the pictures it shows are that user's.  What the user does there opens
the database once more, for whoever is current by then: Trash on a detail view, and a picture that
is picked for the profile.  In between, the completion handler of a login flow may have stored
another user, on whatever page the flow was started.

`App` is the screens with what the profiles have opened; the blocks of a profile may run at any
time, also after it has gone.  A profile that lies beneath a page may be anybody's, and does not
come back; all others are those of the current user (`Own`), exactly if no handler stores another
user while one of them is there (`own_iff`).  So what Trash deletes on a detail view, it deletes for
the user whose profile the view has been opened from (`trash_own`).
-/

set_option autoImplicit false

namespace LandCap

open Presentation Runs

/-! ## What a profile opens -/

/-- The screens, with the databases that have been opened. -/
structure App where
  screens : Screens
  /-- The user of `capDatabase`, for the profile with this number. -/
  capDatabase : ℕ → UserID

/-- What a profile puts on the main queue. -/
inductive ProfileBlock where
  | getName
  | getImages
  /-- A picture has been picked. -/
  | updateProfileImage (imageData : Data) (now : Clock)

/-- The call of a block. -/
def ProfileBlock.call (capDatabase currentUserID : UserID) : ProfileBlock → Call
  | .getName => .getName capDatabase
  | .getImages => .getImages capDatabase
  | .updateProfileImage imageData now => .updateProfileImage currentUserID imageData now

inductive AppEvent where
  | screens (e : ScreensEvent)
  /-- The main queue runs a block of this profile; its call gets the name `id`. -/
  | block (profile : ViewController) (id : ℕ) (b : ProfileBlock)

namespace App

/-- The view controller whose view is in the window: alerts and the activity controller lie over it,
a picker takes its place. -/
def shown : Window ViewController SystemController → Option ViewController
  | ⟨_, .system .imagePicker⟩ :: _ => none
  | ⟨_, .system _⟩ :: w => shown w
  | w => w.front

/-- `viewDidLoad` of a profile that has been made, and `viewWillAppear` of one that comes into the
window. -/
def appear (s : App) (screens : Screens) : App where
  screens := screens
  capDatabase id :=
    if s.screens.made ≤ id ∨
        shown screens.window ≠ shown s.screens.window ∧ shown screens.window = some ⟨id, .profile⟩
    then screens.install.session.currentUserID
    else s.capDatabase id

/-- What an event does to the screens. -/
def perform (s : App) : AppEvent → Option Screens
  | .screens e => s.screens.step e
  | .block profile id b =>
    if s.screens.install.trapped ∨ profile.screen ≠ .profile then none
    else s.screens.call id
      (b.call (s.capDatabase profile.id) s.screens.install.session.currentUserID)

def step (s : App) (e : AppEvent) : Option App := (s.perform e).map s.appear

/-- The app is started for the first time. -/
def start (install : Install) (isConnectedToNetwork : Bool) : App where
  screens := .start install isConnectedToNetwork
  capDatabase := fun _ ↦ noUserID

/-- Every profile that has not been covered by a page has the database of the current user. -/
def Own (s : App) : Prop :=
  Covered rules
    (fun o ↦ o.screen = .profile → s.capDatabase o.id = s.screens.install.session.currentUserID)
    s.screens.window

/-- The event runs a completion handler that stores this user as the current one. -/
def Stores (s : App) (e : AppEvent) (userID : UserID) : Prop :=
  ∃ id call accepted r authResult error, e = .screens (.app (.deliver id call) accepted) ∧
    s.screens.install.pending id = some (.completion r authResult error) ∧
    r.storesID authResult error = some userID

/-- No handler stores another user while there is a profile that has not been covered. -/
def Settled (s : App) (e : AppEvent) : Prop :=
  ∀ userID, s.Stores e userID → userID = s.screens.install.session.currentUserID ∨
    Covered rules (fun o ↦ o.screen ≠ .profile) s.screens.window

end App

/-! ## The current user -/

/-- A handler that stores a user presents no alert. -/
theorem alerts_of_storesID {session : Session} {auth authResult : Option AuthUser} {r : Request}
    {error : Option AuthError} {u : UserID} (h : r.storesID authResult error = some u) :
    (complete session auth r authResult error).alerts = [] := by
  cases r with
  | signIn email password =>
    rw [Request.storesID] at h
    split at h
    · rename_i herror
      obtain ⟨user, huser, -⟩ := Option.map_eq_some_iff.mp h
      obtain ⟨rfl, hverified⟩ := Option.filter_eq_some_iff.mp huser
      simp [complete, Effect.skip, herror, hverified]
    · exact absurd h (Option.some_ne_none _).symm
  | signInAndRetrieveData token =>
    rw [Request.storesID] at h
    split at h
    · rename_i herror
      simp only [complete, if_pos herror]
    · exact absurd h (Option.some_ne_none _).symm
  | _ => exact absurd h (Option.some_ne_none _).symm

/-- The current user changes only where a completion handler stores another. -/
theorem Install.currentUserID_step {s s' : Install} {a : Event} (h : s.step a = some s') :
    s'.session.currentUserID = s.session.currentUserID ∨
      ∃ id call r authResult error u, a = .deliver id call ∧
        s.pending id = some (.completion r authResult error) ∧
        r.storesID authResult error = some u := by
  rcases Install.step_cases h with ⟨id, call, r, authResult, error, rfl, hr, ha⟩ |
    ⟨id, call, o, -, -, rfl⟩ | ⟨-, rfl⟩ | ⟨a, -, -, hsession, -⟩ | ⟨-, hsession, -, -⟩
  · cases hu : r.storesID authResult error with
    | none =>
      refine Or.inl ?_
      rw [(Install.apply_eq_some ha).1, complete_session, hu]
      rfl
    | some u => exact Or.inr ⟨id, call, r, authResult, error, u, rfl, hr, hu⟩
  · exact Or.inl rfl
  · exact Or.inl rfl
  · exact Or.inl (congrArg Session.currentUserID hsession)
  · exact Or.inl (congrArg Session.currentUserID hsession)

section Step

variable {s s' : App} {e : AppEvent} {screens : Screens} {u : UserID}

/-- The window moves by the rules, or the app is started again. -/
theorem moved_perform (hs : s.screens.Ordered) (h : s.perform e = some screens) :
    (∃ connected, screens = s.screens.launch connected) ∨ s.screens.Moved screens := by
  cases e with
  | screens e =>
    rcases moved_step hs.presented h with ⟨connected, -, rfl⟩ | ⟨hm, -⟩
    · exact Or.inl ⟨connected, rfl⟩
    · exact Or.inr hm
  | block profile id b =>
    rw [App.perform] at h
    split at h
    · exact absurd h (Option.some_ne_none _).symm
    · exact Or.inr (acted_call h).1.toMoved

theorem currentUserID_perform (hs : s.screens.Ordered) (h : s.perform e = some screens)
    (hstores : ∀ u, ¬s.Stores e u) :
    screens.install.session.currentUserID = s.screens.install.session.currentUserID := by
  cases e with
  | screens e =>
    rcases moved_step hs.presented h with ⟨connected, -, rfl⟩ |
      ⟨-, ⟨a, ha, hinstall⟩ | ⟨-, hbehind⟩⟩
    · rfl
    · refine (Install.currentUserID_step hinstall).resolve_right ?_
      rintro ⟨id, call, r, authResult, error, u, rfl, hr, hu⟩
      cases e with
      | app e accepted =>
        obtain rfl := Option.some.inj ha
        exact hstores u ⟨id, call, accepted, r, authResult, error, rfl, hr, hu⟩
      | _ => simp [ScreensEvent.event?] at ha
    · rw [hbehind.session]
  | block profile id b =>
    rw [App.perform] at h
    split at h
    · exact absurd h (Option.some_ne_none _).symm
    · rw [(acted_call h).1.install.session]

/-- A handler that stores a user does nothing on the screen. -/
theorem perform_of_stores (hstores : s.Stores e u) (h : s.perform e = some screens) :
    screens.window = s.screens.window ∧ screens.install.session.currentUserID = u := by
  obtain ⟨id, call, accepted, r, authResult, error, rfl, hr, hu⟩ := hstores
  obtain ⟨install, hinstall, rfl⟩ := Option.map_eq_some_iff.mp h
  have happly := Install.step_handle hinstall hr
  obtain ⟨hsession, hopened, -⟩ := Install.apply_eq_some happly
  obtain ⟨cloud, -, rfl⟩ := Option.map_eq_some_iff.mp happly
  simp [Screens.after, alerts_of_storesID hu, Session.currentUserID, complete_session, hu]

/-- An event that runs nothing of a login flow. -/
theorem settled_of_ne (he : ∀ id call accepted, e ≠ .screens (.app (.deliver id call) accepted)) :
    s.Settled e := by
  rintro u ⟨id, call, accepted, -, -, -, rfl, -⟩
  exact absurd rfl (he id call accepted)

/-! ## A step -/

/-- The app starts without a profile. -/
theorem own_root {n : ℕ} {controller : Controller}
    (h : s.screens.window = [⟨none, .navigation ⟨n, controller.screen⟩ []⟩]) : s.Own := by
  rw [App.Own, h]
  refine ⟨fun o ho hprofile ↦ ?_, Or.inl (isMain_root ?_)⟩
  · obtain rfl := List.mem_singleton.mp ho
    cases controller <;> exact absurd hprofile nofun
  · cases controller <;> trivial

/-- A profile that comes, or comes back, opens the database of the current user. -/
theorem own_moved (h : s.Own) (hm : s.screens.Moved screens)
    (huser : screens.install.session.currentUserID = s.screens.install.session.currentUserID) :
    (s.appear screens).Own := by
  have hkept : Covered rules (fun o ↦ o.screen = .profile →
      (s.appear screens).capDatabase o.id = screens.install.session.currentUserID)
      s.screens.window := by
    refine h.mono fun o _ ho hprofile ↦ ?_
    simp only [App.appear]
    split
    · rfl
    · exact (ho hprofile).trans huser.symm
  exact hkept.moves (Rules.keeps_of_imp fun o ho _ ↦ if_pos (Or.inl ho.le)) hm.moves

/-- What has been opened stays as it is where nothing happens on the screen. -/
theorem capDatabase_appear (hs : s.screens.Ordered) (hwindow : screens.window = s.screens.window)
    {o : ViewController} (ho : o ∈ s.screens.window.controllers) :
    (s.appear screens).capDatabase o.id = s.capDatabase o.id := by
  refine if_neg ?_
  rintro (hmade | ⟨hshown, -⟩)
  · exact absurd (hs.numbered o ho) (not_lt.mpr hmade)
  · exact hshown (congrArg App.shown hwindow)

/-- Where another user is stored, the profiles stay those of the current user exactly if there are
none. -/
theorem own_of_stores_iff (hs : s.screens.Ordered) (h : s.Own) (hstores : s.Stores e u)
    (hperform : s.perform e = some screens) :
    (s.appear screens).Own ↔ u = s.screens.install.session.currentUserID ∨
      Covered rules (fun o ↦ o.screen ≠ .profile) s.screens.window := by
  obtain ⟨hwindow, huser⟩ := perform_of_stores hstores hperform
  have hown : (s.appear screens).Own ↔ Covered rules (fun o ↦ o.screen = .profile →
      (s.appear screens).capDatabase o.id = u) s.screens.window := by
    rw [← huser, ← hwindow]
    rfl
  rw [hown]
  constructor
  · intro hnew
    by_cases hsame : u = s.screens.install.session.currentUserID
    · exact Or.inl hsame
    · -- a profile would have the database of both users
      refine Or.inr ((h.and hnew).mono fun o ho ⟨hold, hnew⟩ hprofile ↦ hsame ?_)
      rw [capDatabase_appear hs hwindow ho] at hnew
      exact (hnew hprofile).symm.trans (hold hprofile)
  · rintro (rfl | hnone)
    · refine h.mono fun o ho hold hprofile ↦ ?_
      rw [capDatabase_appear hs hwindow ho]
      exact hold hprofile
    · exact hnone.mono fun o _ hne hprofile ↦ absurd hprofile hne

/-- **The step lemma**: the profiles stay those of the current user exactly if the step is
settled. -/
theorem own_step (hs : s.screens.Ordered) (h : s.Own) (hstep : s.step e = some s') :
    s'.Own ↔ s.Settled e := by
  obtain ⟨screens, hperform, rfl⟩ := Option.map_eq_some_iff.mp hstep
  by_cases hstores : ∃ u, s.Stores e u
  · refine ⟨fun hown u hu ↦ (own_of_stores_iff hs h hu hperform).mp hown, fun hsettled ↦ ?_⟩
    obtain ⟨u, hu⟩ := hstores
    exact (own_of_stores_iff hs h hu hperform).mpr (hsettled u hu)
  · push Not at hstores
    refine iff_of_true ?_ fun u hu ↦ absurd hu (hstores u)
    rcases moved_perform hs hperform with ⟨connected, rfl⟩ | hm
    · exact own_root rfl
    · exact own_moved h hm (currentUserID_perform hs hperform hstores)

theorem App.guarded_step (h : s.screens.Guarded) (hstep : s.step e = some s') :
    s'.screens.Guarded := by
  obtain ⟨screens, hperform, rfl⟩ := Option.map_eq_some_iff.mp hstep
  cases e with
  | screens e => exact LandCap.guarded_step h hperform
  | block profile id b =>
    rw [App.perform] at hperform
    split at hperform
    · exact absurd hperform (Option.some_ne_none _).symm
    · obtain ⟨hacted, hwindow⟩ := acted_call hperform
      refine ⟨h.ordered.moved hacted.toMoved, fun hout ↦ ?_⟩
      have hsession : s.screens.install.session.isSignedIn = false :=
        hacted.install.session ▸ hout
      exact hwindow ▸ h.covered hsession

/-- The profile a detail view has been opened from is one of them. -/
theorem App.Own.of_detail {detail : ℕ} (h : s.Own) (hw : WellPresented rules s.screens.window)
    (hfront : (Screens.beneathAlert s.screens.window).front = some ⟨detail, .detail⟩) :
    ∃ profile rest, Screens.beneathAlert s.screens.window =
        ⟨some ⟨profile, .profile⟩, .navigation ⟨detail, .detail⟩ []⟩ :: rest ∧
      s.capDatabase profile = s.screens.install.session.currentUserID := by
  have hcovered := h.moves (Rules.keeps_of_imp fun _ ho ↦ ho) (moves_beneathAlert hw)
  obtain ⟨l, rest, hwindow, -, hmem⟩ := exists_of_front hfront
  obtain ⟨profile, m, rest, rfl, rfl, hprofile⟩ :=
    detail_beneath (hwindow ▸ presented_beneathAlert hw) hmem
  have hdetail : ¬IsMain (.navigation ⟨detail, .detail⟩ []) := fun hmain ↦
    hmain.2 _ List.mem_cons_self
  rw [hwindow] at hcovered
  exact ⟨profile, m :: rest, hwindow, (hcovered.2.resolve_left hdetail).1 _ hprofile rfl⟩

end Step

/-! ## Runs -/

section Run

variable {install : Install} {connected : Bool} {es : List AppEvent} {t : App}

/-- **The profiles are those of the current user** in every state of a run exactly if no completion
handler stores another user while a profile has not been covered. -/
theorem own_iff (h : run App.step (.start install connected) es = some t) :
    Throughout App.step App.Own (.start install connected) es ↔
      Meets App.step App.Settled (.start install connected) es := by
  have hguarded : (App.start install connected).screens.Guarded := guarded_launch connected rfl
  exact (meets_iff_throughout (fun s e s' hs _ _ hstep ↦ App.guarded_step hs hstep)
    (fun s e s' hs hown hstep ↦ own_step hs.ordered hown hstep) hguarded (own_root rfl) h).symm

/-- The account of another user, for the examples. -/
def bobAccount : AuthUser := { aliceAccount with uid := ⟨"bob", by decide, by decide⟩ }

/-- A user signs out on the profile, and another one signs in on the page and opens theirs. -/
def changingUser : List AppEvent :=
  [.screens .navigateToProfile, .screens .signOut,
    .screens (.app (.tap 0 (.loginButton (some "token"))) true),
    .screens (.app (.respond 0 (some bobAccount) none) true),
    .screens (.app (.deliver 0 0) true), .screens (.app (.deliver 0 0) true),
    .screens .navigateToProfile]

/-- The handler stores the other user while the profile lies beneath the page. -/
theorem own_iff_changingUser :
    ∃ t, run App.step (.start signedInInstall true) changingUser = some t ∧
      t.capDatabase 1 = alice ∧ t.capDatabase 4 = bobAccount.uid ∧
      Throughout App.step App.Own (.start signedInInstall true) changingUser := by
  obtain ⟨t, ht, halice, hbob⟩ : ∃ t,
      run App.step (.start signedInInstall true) changingUser = some t ∧
      t.capDatabase 1 = alice ∧ t.capDatabase 4 = bobAccount.uid := ⟨_, rfl, rfl, rfl⟩
  refine ⟨t, ht, halice, hbob, (own_iff ht).mpr ?_⟩
  rw [changingUser, meets_cons rfl, meets_cons rfl, meets_cons rfl, meets_cons rfl, meets_cons rfl,
    meets_cons rfl, meets_cons rfl]
  refine ⟨settled_of_ne (by simp), settled_of_ne (by simp), settled_of_ne (by simp),
    settled_of_ne (by simp), fun _ _ ↦ Or.inr ?_, fun _ hstores ↦ ?_, settled_of_ne (by simp),
    trivial⟩
  · refine ⟨fun o ho ↦ ?_, Or.inl (isMain_root trivial)⟩
    obtain rfl := List.mem_singleton.mp ho
    exact Screen.noConfusion
  · -- only the block is left
    obtain ⟨id, call, accepted, r, authResult, error, he, hr, -⟩ := hstores
    cases he
    exact Pending.noConfusion (Option.some.inj hr)

/-- The user looks at a picture of the profile. -/
def openingDetail : List AppEvent :=
  [.screens .navigateToProfile, .block ⟨1, .profile⟩ 0 .getImages, .screens .didSelectItem]

/-- **Trash deletes for the user of the profile.**  In a run in which no other user is stored over a
profile, somebody is signed in whenever a detail view deletes a picture, and it is deleted for the
user whose database the profile has opened from which the detail view has come. -/
theorem trash_own (h : run App.step (.start install connected) es = some t)
    (hsettled : Meets App.step App.Settled (.start install connected) es) {t' : App} {id : ℕ}
    {userImage : UserImage}
    (htrash : t.step (.screens (.trashHandler id userImage)) = some t') :
    t.screens.install.session.isSignedIn = true ∧ ∃ profile detail rest,
      Screens.beneathAlert t.screens.window =
        ⟨some ⟨profile, .profile⟩, .navigation ⟨detail, .detail⟩ []⟩ :: rest ∧
      t.screens.install.step (.cloud (.call id (.deleteUserImage (t.capDatabase profile)
        userImage))) = some t'.screens.install := by
  have ht : t.screens.Guarded ∧ t.Own :=
    run_invariant (I := fun s : App ↦ s.screens.Guarded ∧ s.Own)
      (fun s e s' hs hmeets hstep ↦ ⟨App.guarded_step hs.1 hstep,
        (own_step hs.1.ordered hs.2 hstep).mpr hmeets⟩)
      ⟨guarded_launch connected rfl, own_root rfl⟩ hsettled h
  obtain ⟨screens, hperform, rfl⟩ := Option.map_eq_some_iff.mp htrash
  have hact : t.screens.act (.trashHandler id userImage) = some screens :=
    act_of_step (by simp) (by simp) hperform
  rw [Screens.act] at hact
  split at hact
  · rename_i detail hfront
    obtain ⟨called, hcalled, rfl⟩ := Option.map_eq_some_iff.mp hact
    obtain ⟨install', hcall, rfl⟩ := Option.map_eq_some_iff.mp hcalled
    obtain ⟨profile, rest, hwindow, huser⟩ := ht.2.of_detail ht.1.ordered.presented hfront
    refine ⟨ht.1.isSignedIn hfront not_false, profile, detail, rest, hwindow, ?_⟩
    rw [huser]
    exact hcall
  · exact absurd hact (Option.some_ne_none _).symm

/-- The picture is deleted for `alice`, who has opened the profile. -/
theorem trash_own_openingDetail :
    ∃ t t', run App.step (.start signedInInstall true) openingDetail = some t ∧
      t.step (.screens (.trashHandler 1 ⟨none, none, none, some "-0"⟩)) = some t' ∧
      t.capDatabase 1 = alice ∧ t.screens.install.session.isSignedIn = true ∧
      ∃ profile detail rest, Screens.beneathAlert t.screens.window =
          ⟨some ⟨profile, .profile⟩, .navigation ⟨detail, .detail⟩ []⟩ :: rest ∧
        t.screens.install.step (.cloud (.call 1 (.deleteUserImage (t.capDatabase profile)
          ⟨none, none, none, some "-0"⟩))) = some t'.screens.install := by
  obtain ⟨t, t', ht, htrash, halice⟩ : ∃ t t',
      run App.step (.start signedInInstall true) openingDetail = some t ∧
      t.step (.screens (.trashHandler 1 ⟨none, none, none, some "-0"⟩)) = some t' ∧
      t.capDatabase 1 = alice := ⟨_, _, rfl, rfl, rfl⟩
  have hsettled : Meets App.step App.Settled (.start signedInInstall true) openingDetail := by
    have hnone : ∀ e ∈ openingDetail, ∀ id call accepted,
        e ≠ .screens (.app (.deliver id call) accepted) := by
      simp [openingDetail]
    exact (Meets.of_mem hnone).mono fun s e he ↦ settled_of_ne he
  exact ⟨t, t', ht, htrash, halice, trash_own ht hsettled htrash⟩

end Run

end LandCap
