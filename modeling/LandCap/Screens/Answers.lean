import LandCap.Screens.Linked

/-!
# What becomes of the detector's answers

Every press on Process asks the detector, and nothing keeps the user from pressing again, or from
leaving the photo before the answer has come.  All the same a photo leads to one `InfoController` at
most: once it is there, it covers the photo, so that another answer finds the photo covered, and
when it is left, the photo goes with it (`info_presented_once`).
-/

set_option autoImplicit false

namespace LandCap

open Presentation Runs

variable {l : Level ViewController SystemController}
  {w w' rest : Window ViewController SystemController} {N : ViewController → Prop}
  {photo : ViewController}

/-- The level of an `InfoController` is on top, or under an alert. -/
def OnScreen (l : Level ViewController SystemController)
    (w : Window ViewController SystemController) : Prop :=
  ∃ upper rest, AlertAtMost upper ∧ w = upper ++ l :: rest

theorem onScreen_cons (l : Level ViewController SystemController)
    (rest : Window ViewController SystemController) : OnScreen l (l :: rest) :=
  ⟨[], rest, Or.inl rfl, rfl⟩

/-- What an `InfoController` presents, and what happens beneath it, leaves it on the screen. -/
theorem onScreen_of_move (hm : Move rules N (l :: rest) w') (hl : IsInfo l.content) :
    OnScreen l w' ∨ ∃ m n rest', rest = m :: n :: rest' ∧ w' = n :: rest' := by
  obtain ⟨id, home, imageData, hl⟩ := hl
  have honly : ∀ o ∈ l.content.controllers, o.screen = .info home imageData := by
    intro o ho
    rw [hl] at ho
    obtain rfl := List.mem_singleton.mp ho
    rfl
  cases hm with
  | @present o c _ _ ho hc hN =>
    have hscreen := honly o ho
    cases hc with
    | @system p d hd =>
      rw [hscreen] at hd
      exact Or.inl ⟨[⟨some o, .system d⟩], rest,
        Or.inr ⟨_, rfl, congrArg _ (eq_notice_of_info hd)⟩, rfl⟩
    | signOut p hp => exact absurd (hscreen ▸ hp) (by simp)
    | photo | info | detail => simp at hscreen
  | @push o x _ hx hN =>
    have ho : o ∉ l.content.controllers := by
      intro ho
      have hmain := hx.isMain.1
      rw [honly o ho] at hmain
      exact hmain
    rw [Window.push, if_neg ho]
    exact Or.inl (onScreen_cons l _)
  | @pop o _ _ ho hpop =>
    have hscreen := honly o (Content.mem_controllers_of_top ho)
    have hprofile : o.screen = .profile := hpop
    simp [hscreen] at hprofile
  | dismiss hdismiss => exact absurd ⟨id, home, imageData, hl⟩ hdismiss.2
  | dismissBoth hboth => exact Or.inr ⟨_, _, _, rfl, rfl⟩

/-- An `InfoController` under an alert stays there, and nothing but the alert can go. -/
theorem onScreen_of_move_under {v : Level ViewController SystemController}
    (hm : Move rules N (v :: l :: rest) w') (hv : v.content = .system .notice)
    (hl : IsInfo l.content) : OnScreen l w' := by
  cases hm with
  | present ho hc hN =>
    rw [hv] at ho
    exact absurd ho List.not_mem_nil
  | @push o x _ hx hN =>
    have hov : o ∉ v.content.controllers := by
      rw [hv]
      exact List.not_mem_nil
    have hol : o ∉ l.content.controllers := by
      intro ho
      obtain ⟨id, home, imageData, hl⟩ := hl
      rw [hl] at ho
      obtain rfl := List.mem_singleton.mp ho
      exact hx.isMain.1
    rw [Window.push, if_neg hov, Window.push, if_neg hol]
    exact ⟨[v], _, Or.inr ⟨v, rfl, hv⟩, rfl⟩
  | pop ho hpop =>
    simp [hv, Content.top] at ho
  | dismiss hdismiss => exact onScreen_cons l rest
  | dismissBoth hboth =>
    obtain ⟨⟨id, home, imageData, hinfo⟩, -⟩ := hboth
    simp [hv] at hinfo

/-- **The step lemma**: an `InfoController` stays on the screen, or goes with the photo beneath. -/
theorem OnScreen.move (h : OnScreen l w) (hm : Move rules N w w') (hl : IsInfo l.content) :
    OnScreen l w' ∨ ∃ m n rest', w = l :: m :: n :: rest' ∧ w' = n :: rest' := by
  obtain ⟨upper, rest, hupper, rfl⟩ := h
  rcases hupper with rfl | ⟨v, rfl, hv⟩
  · exact (onScreen_of_move hm hl).imp_right fun ⟨m, n, rest', hrest, hw⟩ ↦
      ⟨m, n, rest', congrArg (l :: ·) hrest, hw⟩
  · exact Or.inl (onScreen_of_move_under hm hv hl)

/-- A photo is not deeper in the window than just beneath the `InfoController`. -/
theorem notMem_of_two_above {home : ℕ} {imageData : Data}
    {m : Level ViewController SystemController} (h : WellPresented rules (l :: m :: rest))
    (hl : IsInfo l.content) (hphoto : photo.screen = .photo home imageData) :
    photo ∉ rest.controllers := by
  obtain ⟨id, screen⟩ := photo
  obtain rfl : screen = .photo home imageData := hphoto
  intro hmem
  obtain ⟨n, hn, ho⟩ := List.mem_flatMap.mp hmem
  obtain ⟨upper, lower, rfl⟩ := List.append_of_mem hn
  have hpresented : WellPresented rules ((l :: m :: upper) ++ n :: lower) := h
  rcases above_photo hpresented ho with hnil | ⟨above, u, info, happend, habove, -⟩
  · exact absurd hnil nofun
  · -- of two levels over a photo, the upper one is an alert
    have hnotice : l.content = .system .notice := by
      rcases habove with rfl | ⟨v, rfl, hv⟩
      · exact absurd (congrArg List.length happend) (by simp)
      · exact (List.cons.inj happend).1 ▸ hv
    obtain ⟨info, homeController, data, hinfo⟩ := hl
    exact absurd (hnotice.symm.trans hinfo) nofun

/-- The `InfoController` of the photo is on the screen, or the photo is gone. -/
def Answered (l : Level ViewController SystemController) (photo : ViewController)
    (w : Window ViewController SystemController) : Prop :=
  OnScreen l w ∨ photo ∉ w.controllers

theorem answered_moves {home : ℕ} {imageData : Data} (hw : WellPresented rules w)
    (hl : IsInfo l.content) (hphoto : photo.screen = .photo home imageData) (hnew : ¬N photo)
    (h : Answered l photo w) (hm : Moves rules N w w') : Answered l photo w' := by
  induction hm with
  | refl => exact h
  | tail hm hmove ih =>
    rcases ih with honScreen | hgone
    · have hpresented := hw.moves hm
      rcases honScreen.move hmove hl with honScreen' | ⟨m, n, rest', rfl, rfl⟩
      · exact Or.inl honScreen'
      · exact Or.inr (notMem_of_two_above hpresented hl hphoto)
    · exact Or.inr fun hmem ↦ (hmove.mem_controllers hmem).elim hgone hnew

/-- **A photo leads to one `InfoController` at most.**  Once there is one, it stays on the screen,
under an alert of its own at most, for as long as the photo is there, whatever answers come and
whatever else happens; and when it has been left, so has the photo. -/
theorem info_presented_once {install : Install} {connected : Bool} {es es' : List ScreensEvent}
    {s t : Screens} (h : run Screens.step (.start install connected) es = some s)
    (hwindow : s.window = l :: rest) (hinfo : IsInfo l.content)
    (hpresenter : l.presenter = some photo) (h' : run Screens.step s es' = some t) :
    Answered l photo t.window := by
  have hs := ordered_run h
  -- the presenter is a photo with a number
  obtain ⟨home, data, hphoto, hnumber⟩ : ∃ home data, photo.screen = .photo home data ∧
      photo.id < s.made := by
    have hw := hs.presented
    rw [hwindow] at hw
    obtain ⟨id, homeController, imageData, hl⟩ := hinfo
    obtain ⟨p, home, data, m, rest', -, -, rfl, rfl, -⟩ :=
      info_beneath hw (hl ▸ List.mem_cons_self : (⟨id, .info homeController imageData⟩ :
        ViewController) ∈ l.content.controllers)
    obtain rfl := Option.some.inj hpresenter
    refine ⟨home, data, rfl, hs.numbered _ ?_⟩
    rw [hwindow, Window.mem_controllers_cons, Window.mem_controllers_cons]
    exact Or.inr (Or.inl List.mem_cons_self)
  have hrun : t.Ordered ∧ photo.id < t.made ∧ Answered l photo t.window := by
    refine run_preserves
      (I := fun s ↦ s.Ordered ∧ photo.id < s.made ∧ Answered l photo s.window)
      (fun s e s' ⟨hs, hnumber, hanswered⟩ hstep ↦ ?_)
      ⟨hs, hnumber, Or.inl (hwindow ▸ onScreen_cons l rest)⟩ h'
    refine ⟨ordered_step hs hstep, ?_⟩
    rcases moved_step hs.presented hstep with ⟨connected, -, rfl⟩ | ⟨hm, -⟩
    · refine ⟨hnumber.trans (Nat.lt_succ_self _), Or.inr fun hmem ↦ ?_⟩
      rw [Screens.launch, Window.mem_controllers_cons] at hmem
      obtain rfl := List.mem_singleton.mp (hmem.resolve_right List.not_mem_nil)
      exact absurd hnumber (lt_irrefl _)
    · exact ⟨hnumber.trans_le hm.made,
        answered_moves hs.presented hinfo hphoto (fun hN ↦ absurd hnumber (not_lt.mpr hN.le))
          hanswered hm.moves⟩
  exact hrun.2.2

/-- Process has been pressed twice: a second answer comes while the first is on the screen. -/
def answeringAgain : List ScreensEvent :=
  [.tapTooMany, .detected ⟨1, .photo 0 []⟩ (some [⟨some "Eiffel Tower", some 0.9⟩]) none true]

theorem info_presented_once_answeringAgain :
    ∃ s t l rest photo, run Screens.step (.start signedInInstall true) processing = some s ∧
      s.window = l :: rest ∧ l.presenter = some photo ∧
      run Screens.step s answeringAgain = some t ∧ Answered l photo t.window := by
  obtain ⟨s, t, l, rest, photo, hs, hwindow, hinfo, hpresenter, ht⟩ : ∃ s t l rest photo,
      run Screens.step (.start signedInInstall true) processing = some s ∧
      s.window = l :: rest ∧ IsInfo l.content ∧ l.presenter = some photo ∧
      run Screens.step s answeringAgain = some t :=
    ⟨_, _, _, _, _, rfl, rfl, ⟨_, _, _, rfl⟩, rfl, rfl⟩
  exact ⟨s, t, l, rest, photo, hs, hwindow, hpresenter, ht,
    info_presented_once hs hwindow hinfo hpresenter ht⟩

end LandCap
