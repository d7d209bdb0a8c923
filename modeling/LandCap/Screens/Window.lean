import LandCap.Screens.Basic

/-!
# Where the screens lie

`rules` collects what the view controllers do to the window: who presents what, who pushes what, and
what is dismissed.  In a window that has come about by these rules, a photo lies on the Home it was
taken on, and an `InfoController` on the photo it was made for (`photo_beneath`, `info_beneath`),
and each way of closing a screen is a move by the rules.
-/

set_option autoImplicit false

namespace LandCap

open Presentation

/-! ## Who opens what -/

/-- The screens that are stacked on each other; they are not dismissed. -/
def Screen.IsMain : Screen → Prop
  | .connection | .page | .home | .profile => True
  | .photo .. | .info .. | .detail => False

/-- A stack of such screens. -/
def IsMain (c : Content ViewController SystemController) : Prop :=
  c.controllers ≠ [] ∧ ∀ o ∈ c.controllers, o.screen.IsMain

/-- A stack with nothing but such a screen. -/
theorem isMain_root {o : ViewController} (h : o.screen.IsMain) : IsMain (.navigation o []) := by
  refine ⟨List.cons_ne_nil o [], fun x hx ↦ ?_⟩
  obtain rfl := List.mem_singleton.mp hx
  exact h

theorem IsMain.push {c : Content ViewController SystemController} {o x : ViewController}
    (h : IsMain c) (ho : o ∈ c.controllers) (hx : x.screen.IsMain) : IsMain (c.push x) := by
  rw [IsMain, Content.controllers_push x ho]
  refine ⟨List.append_ne_nil_of_left_ne_nil h.1 [x], fun y hy ↦ ?_⟩
  rw [List.mem_append, List.mem_singleton] at hy
  exact hy.elim (h.2 y) fun heq ↦ heq ▸ hx

theorem IsMain.pop {c : Content ViewController SystemController} (h : IsMain c) :
    IsMain c.pop := by
  cases c with
  | system d => exact absurd rfl h.1
  | navigation root pushed =>
    exact ⟨List.cons_ne_nil root _, fun y hy ↦ h.2 y (Content.controllers_pop_subset _ hy)⟩

/-- What a screen presents of the system. -/
def Screen.PresentsSystem : Screen → SystemController → Prop
  | .page, .skip | .page, .forgotPassword | .page, .notice => True
  | .home, .imagePicker | .profile, .imagePicker => True
  | .info .., .notice => True
  | .detail, .activity | .detail, .notice => True
  | _, _ => False

/-- What a view controller presents. -/
inductive Presents : ViewController → Content ViewController SystemController → Prop
  | system (o : ViewController) {d : SystemController} (hd : o.screen.PresentsSystem d) :
      Presents o (.system d)
  | signOut (o : ViewController) (ho : o.screen = .home ∨ o.screen = .profile)
      {c : Content ViewController SystemController} (hc : IsMain c) : Presents o c
  | photo (home photo : ℕ) (imageData : Data) :
      Presents ⟨home, .home⟩ (.navigation ⟨photo, .photo home imageData⟩ [])
  | info (photo home info : ℕ) (imageData : Data) :
      Presents ⟨photo, .photo home imageData⟩
        (.navigation ⟨info, .info (some home) (some imageData)⟩ [])
  | detail (profile detail : ℕ) :
      Presents ⟨profile, .profile⟩ (.navigation ⟨detail, .detail⟩ [])

/-- What a view controller pushes on its stack. -/
inductive Pushes : ViewController → ViewController → Prop
  | listen (connection x : ℕ) (controller : Controller) :
      Pushes ⟨connection, .connection⟩ ⟨x, controller.screen⟩
  | nextController (page home : ℕ) : Pushes ⟨page, .page⟩ ⟨home, .home⟩
  | navigateToProfile (home profile : ℕ) : Pushes ⟨home, .home⟩ ⟨profile, .profile⟩

theorem Pushes.isMain {o x : ViewController} (h : Pushes o x) :
    o.screen.IsMain ∧ x.screen.IsMain := by
  cases h with
  | listen connection x controller => cases controller <;> exact ⟨trivial, trivial⟩
  | nextController page home => exact ⟨trivial, trivial⟩
  | navigateToProfile home profile => exact ⟨trivial, trivial⟩

/-- What is pushed on a stack that has been presented is pushed by a main screen. -/
theorem Presents.push {p o x : ViewController} {c : Content ViewController SystemController}
    (h : Presents p c) (ho : o ∈ c.controllers) (hx : Pushes o x) : Presents p (c.push x) := by
  have hmain := hx.isMain.1
  cases h with
  | system p hd => exact absurd ho List.not_mem_nil
  | signOut p hp hc => exact .signOut p hp (hc.push ho hx.isMain.2)
  | photo home photo imageData =>
    obtain rfl := List.mem_singleton.mp ho
    exact hmain.elim
  | info photo home info imageData =>
    obtain rfl := List.mem_singleton.mp ho
    exact hmain.elim
  | detail profile detail =>
    obtain rfl := List.mem_singleton.mp ho
    exact hmain.elim

theorem Presents.pop {p : ViewController} {c : Content ViewController SystemController}
    (h : Presents p c) : Presents p c.pop := by
  cases h with
  | system p hd => exact .system p hd
  | signOut p hp hc => exact .signOut p hp hc.pop
  | photo home photo imageData => exact .photo home photo imageData
  | info photo home info imageData => exact .info photo home info imageData
  | detail profile detail => exact .detail profile detail

/-- A screen that is dismissed with the one beneath it, and never alone. -/
def IsInfo (c : Content ViewController SystemController) : Prop :=
  ∃ id home imageData, c = .navigation ⟨id, .info home imageData⟩ []

theorem IsInfo.not_isMain {c : Content ViewController SystemController} (h : IsInfo c) :
    ¬IsMain c := by
  obtain ⟨id, home, imageData, rfl⟩ := h
  exact fun hmain ↦ hmain.2 _ List.mem_cons_self

/-- What the code does with its window. -/
def rules : Rules ViewController SystemController where
  Starts := IsMain
  Presents := Presents
  Pushes := Pushes
  Pops o := o.screen = .profile
  Dismisses c := ¬IsMain c ∧ ¬IsInfo c
  DismissesBoth c d := IsInfo c ∧ ¬IsMain d
  Lasts := IsMain
  not_lasts h := h.1
  not_lasts_both h := ⟨h.1.not_isMain, h.2⟩
  starts_push ho hx hc := hc.push ho hx.isMain.2
  presents_push ho hx hc := hc.push ho hx
  lasts_push ho hx hc := hc.push ho hx.isMain.2
  starts_pop _ _ hc := hc.pop
  presents_pop _ _ hc := hc.pop
  lasts_pop _ _ hc := hc.pop

theorem dismisses_system (d : SystemController) : rules.Dismisses (.system d) := by
  refine ⟨fun hmain ↦ hmain.1 rfl, ?_⟩
  rintro ⟨id, home, imageData, hinfo⟩
  simp at hinfo

/-! ## What lies beneath a screen -/

section Beneath

variable {w : Window ViewController SystemController} {l : Level ViewController SystemController}
  {o : ViewController}

/-- A main screen is on a stack of main screens. -/
theorem isMain_of_mem (h : WellPresented rules (l :: w)) (ho : o ∈ l.content.controllers)
    (hmain : o.screen.IsMain) : IsMain l.content := by
  cases h with
  | root hc => exact hc
  | presented hp hc hw =>
    cases hc with
    | system p hd => exact absurd ho List.not_mem_nil
    | signOut p hp hc => exact hc
    | photo | info | detail =>
      obtain rfl := List.mem_singleton.mp ho
      exact hmain.elim

/-- A `PhotoController` has been presented by the Home it names. -/
theorem photo_beneath {photo home : ℕ} {imageData : Data} (h : WellPresented rules (l :: w))
    (ho : ⟨photo, .photo home imageData⟩ ∈ l.content.controllers) :
    l = ⟨some ⟨home, .home⟩, .navigation ⟨photo, .photo home imageData⟩ []⟩ ∧
      ∃ m rest, w = m :: rest ∧ ⟨home, .home⟩ ∈ m.content.controllers ∧ IsMain m.content := by
  cases h with
  | root hc => exact (hc.2 _ ho).elim
  | presented hp hc hw =>
    cases hc with
    | system p hd => exact absurd ho List.not_mem_nil
    | signOut p hp hc => exact (hc.2 _ ho).elim
    | photo home' photo' imageData' =>
      cases List.mem_singleton.mp ho
      exact ⟨rfl, _, _, rfl, hp, isMain_of_mem hw hp trivial⟩
    | info => cases List.mem_singleton.mp ho
    | detail => cases List.mem_singleton.mp ho

/-- An `InfoController` has been presented by the `PhotoController` it was made for. -/
theorem info_beneath {info : ℕ} {homeController : Option ℕ} {imageData : Option Data}
    (h : WellPresented rules (l :: w))
    (ho : ⟨info, .info homeController imageData⟩ ∈ l.content.controllers) :
    ∃ photo home data m rest, homeController = some home ∧ imageData = some data ∧
      l = ⟨some ⟨photo, .photo home data⟩,
        .navigation ⟨info, .info (some home) (some data)⟩ []⟩ ∧
      w = ⟨some ⟨home, .home⟩, .navigation ⟨photo, .photo home data⟩ []⟩ :: m :: rest ∧
      ⟨home, .home⟩ ∈ m.content.controllers ∧ IsMain m.content := by
  cases h with
  | root hc => exact (hc.2 _ ho).elim
  | presented hp hc hw =>
    cases hc with
    | system p hd => exact absurd ho List.not_mem_nil
    | signOut p hp hc => exact (hc.2 _ ho).elim
    | photo => cases List.mem_singleton.mp ho
    | detail => cases List.mem_singleton.mp ho
    | info photo home info' data =>
      cases List.mem_singleton.mp ho
      obtain ⟨rfl, m, rest, rfl, hhome, hmain⟩ := photo_beneath hw hp
      exact ⟨photo, home, data, m, rest, rfl, rfl, rfl, rfl, hhome, hmain⟩

/-- A detail view has been presented by a profile. -/
theorem detail_beneath {detail : ℕ} (h : WellPresented rules (l :: w))
    (ho : ⟨detail, .detail⟩ ∈ l.content.controllers) :
    ∃ profile m rest, l = ⟨some ⟨profile, .profile⟩, .navigation ⟨detail, .detail⟩ []⟩ ∧
      w = m :: rest ∧ ⟨profile, .profile⟩ ∈ m.content.controllers := by
  cases h with
  | root hc => exact (hc.2 _ ho).elim
  | presented hp hc hw =>
    cases hc with
    | system p hd => exact absurd ho List.not_mem_nil
    | signOut p hp hc => exact (hc.2 _ ho).elim
    | photo => cases List.mem_singleton.mp ho
    | info => cases List.mem_singleton.mp ho
    | detail profile detail' =>
      cases List.mem_singleton.mp ho
      exact ⟨profile, _, _, rfl, rfl, hp⟩

end Beneath

/-! ## What a screen does to the window -/

section Moves

variable {w : Window ViewController SystemController} {N : ViewController → Prop}
  {o : ViewController}

/-- The screen the user sees is on the topmost level. -/
theorem exists_of_front (h : w.front = some o) :
    ∃ l rest, w = l :: rest ∧ l.content.top = some o ∧ o ∈ l.content.controllers := by
  cases w with
  | nil => exact absurd h nofun
  | cons l rest => exact ⟨l, rest, rfl, h, Content.mem_controllers_of_top h⟩

/-- A controller of the system is closed. -/
theorem moves_closeSystem {presenter : Option ViewController} {d : SystemController}
    {rest : Window ViewController SystemController} (h : w = ⟨presenter, .system d⟩ :: rest) :
    Moves rules N w w.dismiss := by
  subst h
  cases rest with
  | nil => exact .refl
  | cons m rest => exact .single (.dismiss (dismisses_system d))

theorem beneathAlert_suffix (w : Window ViewController SystemController) :
    Screens.beneathAlert w <:+ w := by
  rw [Screens.beneathAlert.eq_def]
  split
  · exact List.suffix_cons _ _
  · exact List.suffix_refl _

/-- The alert on top is taken away. -/
theorem moves_beneathAlert (hw : WellPresented rules w) :
    Moves rules N w (Screens.beneathAlert w) := by
  rw [Screens.beneathAlert.eq_def]
  split
  · cases hw with
    | root hc => exact absurd rfl hc.1
    | presented ho hc hw => exact .single (.dismiss (dismisses_system _))
  · exact .refl

theorem presented_beneathAlert (hw : WellPresented rules w) :
    WellPresented rules (Screens.beneathAlert w) := by
  have hm : Moves rules (fun _ ↦ True) w (Screens.beneathAlert w) := moves_beneathAlert hw
  exact hw.moves hm

/-- A photo or a detail view is closed. -/
theorem moves_dismiss (h : w.front = some o) (ho : ¬o.screen.IsMain)
    (hinfo : ∀ home imageData, o.screen ≠ .info home imageData) :
    Moves rules N w w.dismiss := by
  obtain ⟨l, rest, rfl, -, hmem⟩ := exists_of_front h
  cases rest with
  | nil => exact .refl
  | cons m rest =>
    refine .single (.dismiss ⟨fun hmain ↦ ho (hmain.2 o hmem), ?_⟩)
    rintro ⟨id, home, imageData, hc⟩
    rw [hc] at hmem
    obtain rfl := List.mem_singleton.mp hmem
    exact hinfo home imageData rfl

/-- A detail view is closed, or the alert over it. -/
theorem moves_dismiss_detail {detail : ℕ}
    (h : (Screens.beneathAlert w).front = some ⟨detail, .detail⟩) :
    Moves rules N w w.dismiss := by
  rw [Screens.beneathAlert.eq_def] at h
  split at h
  · exact moves_closeSystem rfl
  · exact moves_dismiss h not_false (by simp)

/-- An `InfoController` is left, and its `PhotoController` with it. -/
theorem moves_dismissPresenting {info : ℕ} {homeController : Option ℕ} {imageData : Option Data}
    (hw : WellPresented rules w) (h : w.front = some ⟨info, .info homeController imageData⟩) :
    Moves rules N w w.dismissPresenting := by
  obtain ⟨l, rest, rfl, -, hmem⟩ := exists_of_front h
  obtain ⟨photo, home, data, m, rest, -, -, rfl, rfl, -, -⟩ := info_beneath hw hmem
  exact .single (.dismissBoth ⟨⟨info, some home, some data, rfl⟩,
    fun hmain ↦ hmain.2 ⟨photo, .photo home data⟩ (List.mem_singleton_self _)⟩)

/-- Leaving an `InfoController` brings the stack to the front that holds its Home. -/
theorem dismissPresenting_eq {info : ℕ} {homeController : Option ℕ} {imageData : Option Data}
    (hw : WellPresented rules w) (h : w.front = some ⟨info, .info homeController imageData⟩) :
    ∃ home m rest, homeController = some home ∧ w.dismissPresenting = m :: rest ∧
      m :: rest <:+ w ∧ ⟨home, .home⟩ ∈ m.content.controllers ∧ IsMain m.content := by
  obtain ⟨l, rest, rfl, -, hmem⟩ := exists_of_front h
  obtain ⟨photo, home, data, m, rest, rfl, -, -, rfl, hhome, hmain⟩ := info_beneath hw hmem
  exact ⟨home, m, rest, rfl, rfl, (List.suffix_cons _ _).trans (List.suffix_cons _ _), hhome, hmain⟩

/-- The action of an alert closes the alert. -/
theorem moves_tapped {s : Screens} {tap : Tap} (h : s.tapped tap = some (o, w)) :
    Moves rules N s.window w := by
  rw [Screens.tapped] at h
  split at h
  · obtain ⟨_, _, heq⟩ := Option.map_eq_some_iff.mp h
    obtain ⟨-, rfl⟩ := Prod.mk.inj heq
    exact .refl
  · split at h
    · rename_i hwindow
      split at h
      · obtain ⟨-, rfl⟩ := Prod.mk.inj (Option.some.inj h)
        exact moves_closeSystem hwindow
      · exact absurd h (Option.some_ne_none _).symm
    · exact absurd h (Option.some_ne_none _).symm

end Moves

end LandCap
