import LandCap.Screens.Steps

/-!
# Photos and what is made of them

A photo remembers the Home it was taken on by a weak reference, and hands it on to the
`InfoController` that is made of it, which unwraps it.  Nothing in the code says that the Home is
still there by then.  It is, because of where these screens lie: a photo lies on its Home and under
nothing but the `InfoController`, and what lies beneath a level is not popped (`screens_linked`).
-/

set_option autoImplicit false

namespace LandCap

open Presentation Runs

/-- Nothing lies here, or one alert. -/
def AlertAtMost (upper : Window ViewController SystemController) : Prop :=
  upper = [] ∨ ∃ v, upper = [v] ∧ v.content = .system .notice

theorem eq_notice_of_info {homeController : Option ℕ} {imageData : Option Data}
    {d : SystemController} (h : (Screen.info homeController imageData).PresentsSystem d) :
    d = .notice := by
  cases d with
  | notice => rfl
  | skip | forgotPassword | imagePicker | activity => exact absurd h not_false

/-- Nothing is presented by an `InfoController` but an alert. -/
theorem alertAtMost_of_info {upper lower : Window ViewController SystemController}
    {l : Level ViewController SystemController} {o : ViewController} {homeController : Option ℕ}
    {imageData : Option Data} (h : WellPresented rules (upper ++ l :: lower))
    (hl : l.content = .navigation o []) (ho : o.screen = .info homeController imageData) :
    AlertAtMost upper := by
  rcases List.eq_nil_or_concat' upper with rfl | ⟨above, u, rfl⟩
  · exact Or.inl rfl
  · rw [List.append_assoc, List.singleton_append] at h
    obtain ⟨p, hp, -, hc⟩ := h.exists_presenter
    rw [hl] at hp
    obtain rfl := List.mem_singleton.mp hp
    have hu : u.content = .system .notice := by
      generalize u.content = c at hc
      cases hc with
      | system p hd =>
        rw [ho] at hd
        rw [eq_notice_of_info hd]
      | signOut p hp => exact absurd (ho ▸ hp) (by simp)
      | photo | info | detail => exact absurd ho nofun
    -- an alert presents nothing
    obtain rfl := h.eq_nil_of_controllers_eq_nil (by rw [hu]; rfl)
    exact Or.inr ⟨u, rfl, hu⟩

/-- Nothing but an `InfoController` is presented by a photo. -/
theorem above_photo {upper lower : Window ViewController SystemController}
    {l : Level ViewController SystemController} {photo home : ℕ} {imageData : Data}
    (h : WellPresented rules (upper ++ l :: lower))
    (ho : ⟨photo, .photo home imageData⟩ ∈ l.content.controllers) :
    upper = [] ∨ ∃ above u info, upper = above ++ [u] ∧ AlertAtMost above ∧
      u.content = .navigation ⟨info, .info (some home) (some imageData)⟩ [] := by
  obtain ⟨rfl, -⟩ := photo_beneath h.of_append ho
  rcases List.eq_nil_or_concat' upper with rfl | ⟨above, u, rfl⟩
  · exact Or.inl rfl
  · rw [List.append_assoc, List.singleton_append] at h
    obtain ⟨p, hp, -, hc⟩ := h.exists_presenter
    obtain rfl := List.mem_singleton.mp hp
    have hu : ∃ info, u.content =
        .navigation ⟨info, .info (some home) (some imageData)⟩ [] := by
      generalize u.content = c at hc
      cases hc with
      | system _ hd => exact absurd hd not_false
      | signOut _ hp => exact absurd hp (by simp)
      | info photo home info imageData => exact ⟨info, rfl⟩
    obtain ⟨info, hu⟩ := hu
    exact Or.inr ⟨above, u, info, rfl, alertAtMost_of_info h hu rfl, hu⟩

/-- Every photo lies on the Home it was taken on and under nothing but the `InfoController` that has
been made of it, which lies under nothing but an alert; every `InfoController` has the Home and the
image of the photo beneath it, and no `homeController` has been nil where it was needed. -/
structure Screens.Linked (s : Screens) : Prop where
  photo : ∀ {upper lower l photo home imageData}, s.window = upper ++ l :: lower →
    ⟨photo, .photo home imageData⟩ ∈ l.content.controllers →
    (∃ m rest, lower = m :: rest ∧ ⟨home, .home⟩ ∈ m.content.controllers) ∧
      (upper = [] ∨ ∃ above u info, upper = above ++ [u] ∧ AlertAtMost above ∧
        u.content = .navigation ⟨info, .info (some home) (some imageData)⟩ [])
  info : ∀ {upper lower l info homeController imageData}, s.window = upper ++ l :: lower →
    ⟨info, .info homeController imageData⟩ ∈ l.content.controllers →
    AlertAtMost upper ∧
      ∃ photo home data m rest, homeController = some home ∧ imageData = some data ∧
        lower = ⟨some ⟨home, .home⟩, .navigation ⟨photo, .photo home data⟩ []⟩ :: m :: rest ∧
        ⟨home, .home⟩ ∈ m.content.controllers
  unwrappedNil : s.unwrappedNil = false

theorem Screens.Ordered.linked {s : Screens} (h : s.Ordered) : s.Linked where
  photo {upper lower l photo home imageData} hwindow ho := by
    have hw : WellPresented rules (upper ++ l :: lower) := hwindow ▸ h.presented
    obtain ⟨-, m, rest, rfl, hhome, -⟩ := photo_beneath hw.of_append ho
    exact ⟨⟨m, rest, rfl, hhome⟩, above_photo hw ho⟩
  info {upper lower l info homeController imageData} hwindow ho := by
    have hw : WellPresented rules (upper ++ l :: lower) := hwindow ▸ h.presented
    obtain ⟨photo, home, data, m, rest, rfl, rfl, rfl, rfl, hhome, -⟩ :=
      info_beneath hw.of_append ho
    exact ⟨alertAtMost_of_info hw rfl rfl, photo, home, data, m, rest, rfl, rfl, rfl, hhome⟩
  unwrappedNil := h.unwrappedNil

/-- **Photos stay linked to their Home**: in every run of the app, whatever the user does and
however late the callbacks come. -/
theorem screens_linked {install : Install} {connected : Bool} {es : List ScreensEvent} {t : Screens}
    (h : run Screens.step (.start install connected) es = some t) : t.Linked :=
  (ordered_run h).linked

/-- An install with somebody signed in, next to an empty cloud. -/
def signedInInstall : Install :=
  { Install.fresh (.start .plain []) with
    session := { Session.fresh with isSignedIn := true, storedUserID := some alice } }

/-- A picture is taken and processed. -/
def processing : List ScreensEvent :=
  [.photoOutput ⟨0, .home⟩ (some []) true,
    .detected ⟨1, .photo 0 []⟩ (some [⟨some "Eiffel Tower", some 0.9⟩]) none true]

theorem screens_linked_processing :
    ∃ t, run Screens.step (.start signedInInstall true) processing = some t ∧ t.Linked := by
  obtain ⟨t, ht⟩ : ∃ t, run Screens.step (.start signedInInstall true) processing = some t :=
    ⟨_, rfl⟩
  exact ⟨t, ht, screens_linked ht⟩

end LandCap
