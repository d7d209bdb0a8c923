import LandCap.CapDatabase.Delivered
import LandCap.Profile.Cells
import LandCap.Profile.Detail

/-!
# The profile screens and the database together

`Cells` and `DetailScreen` describe the two screens that show saved pictures on their own, for
whatever images they are given.  Here they are put together with the cloud that gives them the
images: `Gallery` is the cloud and every `ProfileController` that has been opened on any device,
each with the `DetailController` it presents.  A block of `getImages` registers an observer of the
cloud, what the observer is told is appended to the array of its screen, a row that is selected is
passed on to a detail screen, and a confirmed deletion goes back to the cloud.  The other calls of
the app, such as `addNew` or `setupUser`, come at any moment from anywhere.

What the parts have to assume, the whole guarantees.  A detail screen deletes by an id that the
cloud has delivered, so no deletion ever removes anything but one record that was shown
(`gallery_sound`), and the database stays the encoding of accounts.  Because of that every image has
a link, and no block of the grid or of a detail screen is ever in danger for want of one.  What is
left to endanger a screen (`gallery_safe_iff`) is that the array is emptied while the block of a
cell is pending, and that the photo of a detail screen is used before it is there.
-/

set_option autoImplicit false

namespace LandCap

open PathTree Runs

variable {UIImage : Type}

/-! ## The parts put together -/

/-- What a call effect asks of the database. -/
def DetailEffect.call? : DetailEffect UIImage → Option Call
  | .call c => some c
  | _ => none

def DetailEffect.isDismiss : DetailEffect UIImage → Bool
  | .dismiss => true
  | _ => false

/-- The effects an event has added. -/
def DetailScreen.added (screen next : DetailScreen UIImage) : List (DetailEffect UIImage) :=
  next.effects.take (next.effects.length - screen.effects.length)

/-- A `ProfileController`, and the `DetailController` it presents. -/
structure ProfileScreen (UIImage : Type) where
  session : Session
  cells : Cells
  /-- How many blocks that call `getImages` are on the main queue. -/
  registering : ℕ
  /-- The calls of `getImages` it has made. -/
  observers : List ℕ
  detail : Option (DetailScreen UIImage)

/-- The user whose pictures the screen shows. -/
def ProfileScreen.user (screen : ProfileScreen UIImage) : UserID := screen.session.currentUserID

/-- One of the two controllers has trapped. -/
def ProfileScreen.trapped (screen : ProfileScreen UIImage) : Bool :=
  screen.cells.trapped || screen.detail.any DetailScreen.trapped

/-- The observer `id` carries out its step: the child at the head of its queue is appended. -/
def ProfileScreen.receive (screen : ProfileScreen UIImage) (id : ℕ) :
    Option Task → ProfileScreen UIImage
  | some (.images _ ((key, value) :: _)) =>
    if id ∈ screen.observers then
      { screen with cells := (screen.cells.step (.childAdded key value)).getD screen.cells }
    else screen
  | _ => screen

/-- The cloud and the profile screens, those of all devices. -/
structure Gallery (UIImage : Type) where
  cloud : Cloud
  screens : ℕ → ProfileScreen UIImage

/-- What happens on a profile screen. -/
inductive ProfileEvent (UIImage : Type) where
  | viewWillAppear
  /-- The main queue runs a block of `getImages`. -/
  | register
  | cellForItemAt (row : ℕ)
  /-- The main queue runs the oldest block of a cell. -/
  | runBlock
  | didSelectItemAt (row : ℕ)
  /-- An event of the detail screen. -/
  | detail (event : DetailEvent UIImage)

inductive GalleryEvent (UIImage : Type) where
  /-- Something happens on a screen; the call that is made, if one is, is named `id`. -/
  | screen (i id : ℕ) (event : ProfileEvent UIImage)
  /-- The rest of the app makes a call. -/
  | call (id : ℕ) (c : Call)
  /-- The step in flight of a call is carried out. -/
  | deliver (id : ℕ)
  /-- The step in flight of a call fails; an observer is cancelled by that. -/
  | fail (id : ℕ)

/-- The call deletes an image. -/
def Call.isDelete : Call → Bool
  | .deleteUserImage .. => true
  | _ => false

variable (graphics : UIGraphics UIImage)

/-- What an event makes of a screen, and the call it makes. -/
def ProfileScreen.step (screen : ProfileScreen UIImage) :
    ProfileEvent UIImage → Option (ProfileScreen UIImage × Option Call)
  | .viewWillAppear => (screen.cells.step .viewWillAppear).map fun cells ↦
    ({ screen with cells := cells, registering := screen.registering + 1 }, none)
  | .register =>
    if 0 < screen.registering then
      some ({ screen with registering := screen.registering - 1 }, some (.getImages screen.user))
    else none
  | .cellForItemAt row => (screen.cells.step (.cellForItemAt row)).map fun cells ↦
    ({ screen with cells := cells }, none)
  | .runBlock => (screen.cells.step .runBlock).map fun cells ↦
    ({ screen with cells := cells }, none)
  | .didSelectItemAt row =>
    -- a screen that presents another one is not touched
    if screen.detail.isSome then none
    else screen.cells.userImageObjects[row]?.map fun userImage ↦
      ({ screen with detail := some (.opened userImage) }, none)
  | .detail event => screen.detail.bind fun detail ↦
    (detail.step graphics screen.session event).map fun next ↦
      let added := detail.added next
      ({ screen with
          detail := if added.any DetailEffect.isDismiss then none else some next },
        (added.filterMap DetailEffect.call?).head?)

/-- A screen remembers the observers it has registered. -/
def ProfileScreen.remember (screen : ProfileScreen UIImage) (id : ℕ) : Call → ProfileScreen UIImage
  | .getImages _ => { screen with observers := id :: screen.observers }
  | _ => screen

namespace Gallery

/-- The transitions. -/
def step (g : Gallery UIImage) : GalleryEvent UIImage → Option (Gallery UIImage)
  | .screen i id event =>
    if (g.screens i).trapped then none
    else match (g.screens i).step graphics event with
    | none => none
    | some (screen, none) => some { g with screens := Function.update g.screens i screen }
    | some (screen, some c) => (g.cloud.step (.call id c)).map fun cloud ↦
      { cloud := cloud, screens := Function.update g.screens i (screen.remember id c) }
  | .call id c =>
    -- only the detail screen deletes
    if c.isDelete then none
    else (g.cloud.step (.call id c)).map fun cloud ↦ { g with cloud := cloud }
  | .deliver id =>
    (g.cloud.step (.deliver id)).map fun cloud ↦
      { cloud := cloud, screens := fun i ↦ (g.screens i).receive id (g.cloud.inFlight id) }
  | .fail id =>
    (g.cloud.step (.fail id)).map fun cloud ↦
      { cloud := cloud
        screens := fun i ↦ { g.screens i with
          observers := (g.screens i).observers.filter (· ≠ id) } }

/-- A cloud, and screens that have not appeared yet. -/
def opened (s : Cloud) (sessions : ℕ → Session) : Gallery UIImage where
  cloud := s
  screens i :=
    { session := sessions i, cells := .opened, registering := 0, observers := [], detail := none }

end Gallery

/-! ## What a step of a screen does -/

section Screen

variable {graphics : UIGraphics UIImage} {screen next : ProfileScreen UIImage} {c : Option Call}

/-- The event of the grid, if it is one. -/
def ProfileEvent.cell? : ProfileEvent UIImage → Option CellEvent
  | .viewWillAppear => some .viewWillAppear
  | .cellForItemAt row => some (.cellForItemAt row)
  | .runBlock => some .runBlock
  | .register | .didSelectItemAt _ | .detail _ => none

/-- The images of a grid come from the database only. -/
theorem ProfileEvent.ne_of_cell? {event : ProfileEvent UIImage} {e : CellEvent}
    (he : event.cell? = some e) (key : String) (value : Database) : e ≠ .childAdded key value := by
  rintro rfl
  cases event <;> simp [ProfileEvent.cell?] at he

/-- **What an event can do to a screen**: the grid takes a step, the pictures are asked for, a
detail screen is opened, or the detail screen takes a step. -/
inductive ProfileScreen.Transition (graphics : UIGraphics UIImage)
    (screen : ProfileScreen UIImage) :
    ProfileEvent UIImage → ProfileScreen UIImage → Option Call → Prop
  | grid {event : ProfileEvent UIImage} {e : CellEvent} {cells : Cells} (n : ℕ)
      (he : event.cell? = some e) (h : screen.cells.step e = some cells) :
      Transition graphics screen event { screen with cells := cells, registering := n } none
  | register (n : ℕ) :
      Transition graphics screen .register { screen with registering := n }
        (some (.getImages screen.user))
  | select {row : ℕ} {userImage : UserImage}
      (h : screen.cells.userImageObjects[row]? = some userImage) :
      Transition graphics screen (.didSelectItemAt row)
        { screen with detail := some (.opened userImage) } none
  | detail {event : DetailEvent UIImage} {detail after : DetailScreen UIImage}
      (hdetail : screen.detail = some detail)
      (h : detail.step graphics screen.session event = some after) :
      Transition graphics screen (.detail event)
        { screen with
          detail := if (detail.added after).any DetailEffect.isDismiss then none else some after }
        ((detail.added after).filterMap DetailEffect.call?).head?

theorem ProfileScreen.transition {event : ProfileEvent UIImage}
    (h : screen.step graphics event = some (next, c)) :
    screen.Transition graphics event next c := by
  cases event with
  | viewWillAppear | cellForItemAt row | runBlock =>
    obtain ⟨cells, hstep, he⟩ := Option.map_eq_some_iff.mp h
    obtain ⟨rfl, rfl⟩ := Prod.mk.inj he
    exact .grid _ rfl hstep
  | register =>
    rw [ProfileScreen.step] at h
    split at h
    · obtain ⟨rfl, rfl⟩ := Prod.mk.inj (Option.some.inj h)
      exact .register _
    · exact absurd h (by simp)
  | didSelectItemAt row =>
    rw [ProfileScreen.step] at h
    split at h
    · exact absurd h (by simp)
    · obtain ⟨userImage, hrow, he⟩ := Option.map_eq_some_iff.mp h
      obtain ⟨rfl, rfl⟩ := Prod.mk.inj he
      exact .select hrow
  | detail event =>
    obtain ⟨detail, hdetail, h⟩ := Option.bind_eq_some_iff.mp h
    obtain ⟨after, hstep, he⟩ := Option.map_eq_some_iff.mp h
    obtain ⟨rfl, rfl⟩ := Prod.mk.inj he
    exact .detail hdetail hstep

theorem DetailScreen.added_eq {detail after : DetailScreen UIImage}
    {effects : List (DetailEffect UIImage)} (h : after.effects = effects ++ detail.effects) :
    detail.added after = effects := by
  rw [DetailScreen.added, h, List.length_append, Nat.add_sub_cancel]
  exact List.take_left

/-- **What a detail screen adds to the effects**: the only call is to delete its image. -/
theorem DetailScreen.exists_added {session : Session} {detail after : DetailScreen UIImage}
    {event : DetailEvent UIImage} (h : detail.step graphics session event = some after) :
    ∃ effects, after.effects = effects ++ detail.effects ∧
      ∀ c, DetailEffect.call c ∈ effects →
        c = .deleteUserImage session.currentUserID detail.controller.userImage := by
  obtain ⟨-, -, rfl⟩ := DetailScreen.step_eq_some h
  cases event with
  | runBlock =>
    refine ⟨[], ?_, by simp⟩
    rw [DetailScreen.handle, DetailScreen.runBlock]
    split
    · rfl
    · split <;> rfl
  | downloaded image => cases image <;> exact ⟨[], rfl, by simp⟩
  | share => exact ⟨[_], rfl, by simp⟩
  | download =>
    rw [DetailScreen.handle, DetailScreen.downloadHandler]
    split
    · exact ⟨[], rfl, by simp⟩
    · exact ⟨[_], rfl, by simp⟩
  | trash => exact ⟨[_], rfl, by simp⟩
  | answer delete =>
    cases delete
    · exact ⟨[], rfl, by simp⟩
    · exact ⟨[_, _], rfl, by simp⟩
  | cancel => exact ⟨[_], rfl, by simp⟩

/-- What a detail screen calls, it calls to delete its image. -/
theorem DetailScreen.call_added {session : Session} {detail after : DetailScreen UIImage}
    {event : DetailEvent UIImage} (h : detail.step graphics session event = some after) {c : Call}
    (hc : c ∈ (detail.added after).filterMap DetailEffect.call?) :
    c = .deleteUserImage session.currentUserID detail.controller.userImage := by
  obtain ⟨effects, heffects, hcall⟩ := DetailScreen.exists_added h
  rw [DetailScreen.added_eq heffects] at hc
  obtain ⟨effect, heffect, he⟩ := List.mem_filterMap.mp hc
  cases effect <;> simp only [DetailEffect.call?, reduceCtorEq, Option.some.injEq] at he
  case call c' => exact hcall c (he ▸ heffect)

/-- A detail screen goes on showing its image. -/
theorem DetailScreen.userImage_step {session : Session} {detail after : DetailScreen UIImage}
    {event : DetailEvent UIImage} (h : detail.step graphics session event = some after) :
    after.controller.userImage = detail.controller.userImage := by
  obtain ⟨-, -, rfl⟩ := DetailScreen.step_eq_some h
  cases event with
  | runBlock =>
    rw [DetailScreen.handle, DetailScreen.runBlock]
    split
    · rfl
    · split <;> rfl
  | downloaded image => cases image <;> rfl
  | download =>
    rw [DetailScreen.handle, DetailScreen.downloadHandler]
    split <;> rfl
  | answer delete => cases delete <;> rfl
  | share | trash | cancel => rfl

/-- The images a screen holds, in its grid and in its detail screen. -/
def ProfileScreen.images (screen : ProfileScreen UIImage) : List UserImage :=
  screen.cells.userImageObjects ++
    (screen.detail.map fun detail ↦ detail.controller.userImage).toList

/-- The cells receive no image of their own. -/
theorem userImageObjects_step {cells after : Cells} {e : CellEvent}
    (he : ∀ key value, e ≠ .childAdded key value) (h : cells.step e = some after) :
    after.userImageObjects ⊆ cells.userImageObjects := by
  cases e with
  | childAdded key value => exact absurd rfl (he key value)
  | cellForItemAt row | viewWillAppear =>
    rw [Cells.step] at h
    split at h
    · exact absurd h (by simp)
    · obtain rfl := Option.some.inj h
      simp
  | runBlock =>
    rw [Cells.step] at h
    split at h
    · exact absurd h (by simp)
    · split at h
      · exact absurd h (by simp)
      · obtain rfl := Option.some.inj h
        simp

/-- **What a step of a screen does**: it keeps its session and its observers, it holds no image it
did not hold, and it asks for the pictures of its user or deletes an image it holds. -/
structure ProfileScreen.Stepped (screen next : ProfileScreen UIImage) (c : Option Call) : Prop where
  session : next.session = screen.session
  observers : next.observers = screen.observers
  images : next.images ⊆ screen.images
  call : ∀ c' ∈ c, c' = .getImages screen.user ∨
    ∃ userImage ∈ screen.images, c' = .deleteUserImage screen.user userImage

theorem ProfileScreen.stepped {event : ProfileEvent UIImage}
    (h : screen.step graphics event = some (next, c)) : screen.Stepped next c := by
  cases ProfileScreen.transition h with
  | grid n he hstep =>
    have hsubset := userImageObjects_step (ProfileEvent.ne_of_cell? he) hstep
    exact ⟨rfl, rfl, List.append_subset.mpr ⟨List.Subset.trans hsubset
      (List.subset_append_left _ _), List.subset_append_right _ _⟩, by simp⟩
  | register n => exact ⟨rfl, rfl, List.Subset.refl _, by simp⟩
  | @select row userImage hrow =>
    refine ⟨rfl, rfl, List.append_subset.mpr ⟨List.subset_append_left _ _, ?_⟩, by simp⟩
    intro image himage
    obtain rfl : image = userImage := by simpa [DetailScreen.opened] using himage
    exact List.mem_append_left _ (List.mem_of_getElem? hrow)
  | @detail event detail after hdetail hstep =>
    have himage : detail.controller.userImage ∈ screen.images :=
      List.mem_append_right _ (by simp [hdetail])
    refine ⟨rfl, rfl, List.append_subset.mpr ⟨List.subset_append_left _ _, ?_⟩, ?_⟩
    · intro image hmem
      split at hmem
      · simp at hmem
      · obtain rfl : image = after.controller.userImage := by simpa using hmem
        exact DetailScreen.userImage_step hstep ▸ himage
    · intro c hc
      exact Or.inr ⟨_, himage, DetailScreen.call_added hstep (List.mem_of_mem_head? hc)⟩

/-- What an observer passes on, its screen appends. -/
theorem ProfileScreen.images_receive {id : ℕ} {t : Option Task} {userImage : UserImage}
    (h : userImage ∈ (screen.receive id t).images) :
    userImage ∈ screen.images ∨ id ∈ screen.observers ∧
      ∃ u key value queue, t = some (.images u ((key, value) :: queue)) ∧
        UserImage.ofSnapshot key value = some userImage := by
  rw [ProfileScreen.receive.eq_def] at h
  split at h
  · rename_i u key value queue
    split at h
    · rename_i hid
      rcases List.mem_append.mp h with h | h
      · rw [Cells.step] at h
        split at h
        · exact Or.inl (List.mem_append_left _ h)
        · rcases List.mem_append.mp h with h | h
          · exact Or.inl (List.mem_append_left _ h)
          · exact Or.inr ⟨hid, u, key, value, queue, rfl, Option.mem_toList.mp h⟩
      · exact Or.inl (List.mem_append_right _ h)
    · exact Or.inl h
  · exact Or.inl h

/-- What an observer passes on changes nothing but the grid. -/
theorem ProfileScreen.exists_receive_eq (screen : ProfileScreen UIImage) (id : ℕ)
    (t : Option Task) : ∃ cells, screen.receive id t = { screen with cells := cells } := by
  rw [ProfileScreen.receive.eq_def]
  split
  · split <;> exact ⟨_, rfl⟩
  · exact ⟨_, rfl⟩

@[simp] theorem ProfileScreen.session_receive (screen : ProfileScreen UIImage) (id : ℕ)
    (t : Option Task) : (screen.receive id t).session = screen.session := by
  obtain ⟨cells, h⟩ := screen.exists_receive_eq id t
  rw [h]

@[simp] theorem ProfileScreen.observers_receive (screen : ProfileScreen UIImage) (id : ℕ)
    (t : Option Task) : (screen.receive id t).observers = screen.observers := by
  obtain ⟨cells, h⟩ := screen.exists_receive_eq id t
  rw [h]

@[simp] theorem ProfileScreen.user_remember (screen : ProfileScreen UIImage) (id : ℕ) (c : Call) :
    (screen.remember id c).user = screen.user := by
  cases c <;> rfl

@[simp] theorem ProfileScreen.images_remember (screen : ProfileScreen UIImage) (id : ℕ)
    (c : Call) : (screen.remember id c).images = screen.images := by
  cases c <;> rfl

theorem ProfileScreen.mem_observers_remember {id k : ℕ} {c : Call}
    (h : k ∈ (screen.remember id c).observers) :
    k ∈ screen.observers ∨ k = id ∧ ∃ u, c = .getImages u := by
  cases c <;> try exact Or.inl h
  case getImages u =>
    rcases List.mem_cons.mp h with rfl | h
    · exact Or.inr ⟨rfl, u, rfl⟩
    · exact Or.inl h

end Screen

/-! ## The invariant -/

/-- The call is an observer of the pictures of `u`. -/
def Cloud.Observes (s : Cloud) (id : ℕ) (u : UserID) : Prop :=
  s.inFlight id = some (.imagesRead u) ∨ ∃ queue, s.inFlight id = some (.images u queue)

/-- Every picture that is anywhere is complete, and its id names a node one level down. -/
structure Service.Sound (v : Service) : Prop where
  complete : v.Complete
  plain : ∀ u e, v.Shows u e → components e.id = [e.id]
  keys : ∀ n, components (v.firebase.autoId n) = [v.firebase.autoId n]

/-- The cloud represents a sound service, and the screens show what it has delivered to their
users. -/
structure Gallery.Kept (g : Gallery UIImage) : Prop where
  service : ∃ v, g.cloud.Represents v ∧ v.Sound
  observers : ∀ i, ∀ id ∈ (g.screens i).observers, g.cloud.Observes id (g.screens i).user
  images : ∀ i, ∀ userImage ∈ (g.screens i).images,
    Callback.image (g.screens i).user userImage ∈ g.cloud.callbacks
  removed : ∀ id u key, g.cloud.inFlight id = some (.imageRemove u key) →
    ∃ userImage, Callback.image u userImage ∈ g.cloud.callbacks ∧ userImage.id = some key

section Step

variable {graphics : UIGraphics UIImage} {g g' : Gallery UIImage}

theorem Service.Sound.step {v v' : Service} {a : Action} (h : v.Sound)
    (hstep : v.step a = some v') : v'.Sound where
  complete := h.complete.step hstep
  plain := by
    have hupdate : ∀ {id : ℕ} {j : Option Job}, (∀ u e, j ≠ some (.imageWrite u e)) →
        (∀ u queue, j ≠ some (.images u queue)) → ∀ u e,
        { v with inFlight := Function.update v.inFlight id j : Service }.Shows u e →
          components e.id = [e.id] :=
      fun hwrite hqueue u e he ↦ h.plain u e (he.of_update (hwrite u e) (hqueue u))
    intro u e he
    cases a with
    | call id c =>
      obtain ⟨-, rfl⟩ := Service.step_call hstep
      refine hupdate (fun u e ↦ ?_) (fun u queue ↦ ?_) u e he <;> cases c <;> simp [Call.job]
    | fail id =>
      obtain rfl := Service.step_fail hstep
      exact hupdate (by simp) (by simp) u e he
    | deliver id =>
      obtain ⟨j, hid, rfl⟩ := Service.step_deliver hstep
      rcases he.of_perform hid with he | ⟨-, -, hkey, -⟩
      · exact h.plain u e he
      · exact hkey ▸ h.keys v.created
  keys := by
    cases a with
    | call id c => exact (Service.step_call hstep).2 ▸ h.keys
    | fail id => exact Service.step_fail hstep ▸ h.keys
    | deliver id =>
      obtain ⟨j, -, rfl⟩ := Service.step_deliver hstep
      exact h.keys

/-- **An image that has been delivered is a picture whose id names one record.** -/
theorem Gallery.Kept.image (h : g.Kept) {u : UserID} {userImage : UserImage}
    (himage : Callback.image u userImage ∈ g.cloud.callbacks) :
    ∃ e : SavedImage, userImage = e.userImage ∧ components e.id = [e.id] := by
  obtain ⟨v, hrep, hsound⟩ := h.service
  rw [hrep.callbacks] at himage
  obtain ⟨e, rfl⟩ := hsound.complete u userImage himage
  exact ⟨e, rfl, hsound.plain u e (.delivered himage)⟩

/-- What a screen holds is a picture. -/
theorem Gallery.Kept.mem_images (h : g.Kept) {i : ℕ} {userImage : UserImage}
    (hmem : userImage ∈ (g.screens i).images) : ∃ e : SavedImage, userImage = e.userImage := by
  obtain ⟨e, he, -⟩ := h.image (h.images i userImage hmem)
  exact ⟨e, he⟩

/-- The service keeps up with a step of the cloud. -/
theorem Gallery.Kept.service_step (h : g.Kept) {a : Action} {s : Cloud} (ha : PlainDelete a)
    (hstep : g.cloud.step a = some s) : ∃ v, s.Represents v ∧ v.Sound := by
  obtain ⟨v, hrep, hsound⟩ := h.service
  have hrel := lockstep_service hrep ha
  rw [hstep] at hrel
  cases hv : v.step a with
  | none => exact absurd (hv ▸ hrel) nofun
  | some v' =>
    rw [hv] at hrel
    cases hrel with
    | some hrep' => exact ⟨v', hrep', hsound.step hv⟩

/-- What has been called back stays called back. -/
theorem Cloud.callbacks_step {s s' : Cloud} {a : Action} (h : s.step a = some s') :
    s.callbacks ⊆ s'.callbacks := by
  cases a with
  | call id c =>
    obtain ⟨-, rfl⟩ := Cloud.step_call h
    exact List.Subset.refl _
  | fail id =>
    obtain rfl := Cloud.step_fail h
    exact List.Subset.refl _
  | deliver id =>
    obtain ⟨t, -, rfl⟩ := Cloud.step_deliver h
    exact List.subset_append_right _ _

/-- **An observer goes on observing** until it fails. -/
theorem Cloud.Observes.step {s s' : Cloud} {a : Action} {id : ℕ} {u : UserID}
    (h : s.Observes id u) (ha : a ≠ .fail id) (hstep : s.step a = some s') :
    s'.Observes id u := by
  cases a with
  | call j c =>
    obtain ⟨hfree, rfl⟩ := Cloud.step_call hstep
    have hne : id ≠ j := by
      rintro rfl
      rcases h with h | ⟨queue, h⟩ <;> exact absurd (hfree.symm.trans h) (by simp)
    simpa only [Cloud.Observes, Function.update_of_ne hne] using h
  | fail j =>
    obtain rfl := Cloud.step_fail hstep
    have hne : id ≠ j := fun he ↦ ha (he ▸ rfl)
    simpa only [Cloud.Observes, Function.update_of_ne hne] using h
  | deliver j =>
    obtain ⟨t, hj, rfl⟩ := Cloud.step_deliver hstep
    rcases eq_or_ne id j with rfl | hne
    · rw [Cloud.Observes, Cloud.perform_inFlight_self]
      rcases h with h | ⟨queue, h⟩ <;> obtain rfl := Option.some.inj (hj.symm.trans h) <;>
        exact Or.inr ⟨_, rfl⟩
    · rw [Cloud.Observes, s.perform_inFlight_of_ne t hne]
      rcases h with h | ⟨queue, h⟩
      · exact Or.inl (by rw [h]; rfl)
      · exact Or.inr ⟨_, by rw [h]; rfl⟩

/-- A record is about to be removed because a deletion has been called, or was before. -/
theorem imageRemove_step {s s' : Cloud} {a : Action} {id : ℕ} {u : UserID} {key : String}
    (hstep : s.step a = some s') (h : s'.inFlight id = some (.imageRemove u key)) :
    (∃ userImage, a = .call id (.deleteUserImage u userImage) ∧ userImage.id = some key) ∨
      s.inFlight id = some (.imageRemove u key) := by
  cases a with
  | call j c =>
    obtain ⟨-, rfl⟩ := Cloud.step_call hstep
    rcases update_eq_some h with ⟨rfl, hc⟩ | ⟨-, h⟩
    · cases c <;> simp only [Call.task, Option.some.injEq, reduceCtorEq,
        Option.map_eq_some_iff] at hc
      case deleteUserImage v userImage =>
        obtain ⟨key', hkey, he⟩ := hc
        obtain ⟨rfl, rfl⟩ := Task.imageRemove.inj he
        exact Or.inl ⟨userImage, rfl, hkey⟩
    · exact Or.inr h
  | fail j =>
    obtain rfl := Cloud.step_fail hstep
    exact Or.inr (update_eq_some_of_ne h (by simp)).2
  | deliver j =>
    obtain ⟨t, -, rfl⟩ := Cloud.step_deliver hstep
    rcases Cloud.perform_inFlight h (by simp) with ⟨-, hf⟩ | ⟨-, h⟩
    · cases Cloud.followUp_cases hf
    · exact Or.inr h

/-- The cloud takes a step, and the screens change as they may. -/
theorem Gallery.Kept.of_step (h : g.Kept) {a : Action} (hstep : g.cloud.step a = some g'.cloud)
    (hdelete : ∀ id u userImage, a = .call id (.deleteUserImage u userImage) →
      Callback.image u userImage ∈ g.cloud.callbacks)
    (hobservers : ∀ i, ∀ id ∈ (g'.screens i).observers,
      g'.cloud.Observes id (g'.screens i).user)
    (himages : ∀ i, ∀ userImage ∈ (g'.screens i).images,
      Callback.image (g'.screens i).user userImage ∈ g'.cloud.callbacks) : g'.Kept where
  service := by
    refine h.service_step ?_ hstep
    cases a with
    | call id c =>
      cases c <;> try trivial
      case deleteUserImage u userImage =>
        obtain ⟨e, rfl, hplain⟩ := h.image (hdelete id u userImage rfl)
        rintro key hkey
        obtain rfl := Option.some.inj hkey
        exact hplain
    | deliver id | fail id => trivial
  observers := hobservers
  images := himages
  removed id u key hid := by
    rcases imageRemove_step hstep hid with ⟨userImage, rfl, hkey⟩ | hid
    · exact ⟨userImage, Cloud.callbacks_step hstep (hdelete id u userImage rfl), hkey⟩
    · obtain ⟨userImage, himage, hkey⟩ := h.removed id u key hid
      exact ⟨userImage, Cloud.callbacks_step hstep himage, hkey⟩

/-- One screen takes a step that calls nothing. -/
theorem Gallery.Kept.update (h : g.Kept) {i : ℕ} {next : ProfileScreen UIImage}
    {c : Option Call} (hs : (g.screens i).Stepped next c) :
    Gallery.Kept { g with screens := Function.update g.screens i next } where
  service := h.service
  observers j id hid := by
    rcases eq_or_ne j i with rfl | hne
    · simp only [Function.update_self] at hid ⊢
      rw [ProfileScreen.user, hs.session]
      exact h.observers j id (hs.observers ▸ hid)
    · simp only [Function.update_of_ne hne] at hid ⊢
      exact h.observers j id hid
  images j userImage himage := by
    rcases eq_or_ne j i with rfl | hne
    · simp only [Function.update_self] at himage ⊢
      rw [ProfileScreen.user, hs.session]
      exact h.images j userImage (hs.images himage)
    · simp only [Function.update_of_ne hne] at himage ⊢
      exact h.images j userImage himage
  removed := h.removed

/-- One screen takes a step, and calls the database. -/
theorem Gallery.Kept.call (h : g.Kept) {i id : ℕ} {next : ProfileScreen UIImage} {c : Call}
    {s : Cloud} (hs : (g.screens i).Stepped next (some c))
    (hstep : g.cloud.step (.call id c) = some s) :
    Gallery.Kept { cloud := s, screens := Function.update g.screens i (next.remember id c) } := by
  have hnext := h.update hs
  have hcall := hs.call c rfl
  refine h.of_step hstep ?_ (fun j k hk ↦ ?_) fun j userImage himage ↦ ?_
  · intro id' u userImage he
    obtain ⟨-, rfl⟩ := Action.call.inj he
    rcases hcall with he | ⟨userImage', hmem, he⟩
    · exact absurd he (by simp)
    · obtain ⟨rfl, rfl⟩ := Call.deleteUserImage.inj he
      exact h.images i userImage hmem
  · have hold := hnext.observers j k
    rcases eq_or_ne j i with rfl | hne
    · simp only [Function.update_self, ProfileScreen.user_remember] at hk hold ⊢
      rcases ProfileScreen.mem_observers_remember hk with hk | ⟨rfl, u, rfl⟩
      · exact (hold hk).step (by simp) hstep
      · -- the call has become one of the observers of the screen
        obtain rfl : u = (g.screens j).user := by simpa using hcall
        obtain ⟨-, rfl⟩ := Cloud.step_call hstep
        have huser : next.user = (g.screens j).user := congrArg Session.currentUserID hs.session
        rw [huser]
        exact Or.inl (Function.update_self ..)
    · simp only [Function.update_of_ne hne] at hk hold ⊢
      exact (hold hk).step (by simp) hstep
  · have hold := hnext.images j userImage
    rcases eq_or_ne j i with rfl | hne
    · simp only [Function.update_self, ProfileScreen.user_remember,
        ProfileScreen.images_remember] at himage hold ⊢
      exact Cloud.callbacks_step hstep (hold himage)
    · simp only [Function.update_of_ne hne] at himage hold ⊢
      exact Cloud.callbacks_step hstep (hold himage)

/-- An observer passes an image on to its screen. -/
theorem Gallery.Kept.deliver (h : g.Kept) {id : ℕ} {s : Cloud}
    (hstep : g.cloud.step (.deliver id) = some s) :
    Gallery.Kept { cloud := s
                   screens := fun i ↦ (g.screens i).receive id (g.cloud.inFlight id) } := by
  refine h.of_step hstep (by simp) (fun i k hk ↦ ?_) fun i userImage himage ↦ ?_
  · simp only [ProfileScreen.observers_receive, ProfileScreen.user,
      ProfileScreen.session_receive] at hk ⊢
    exact (h.observers i k hk).step (by simp) hstep
  · simp only [ProfileScreen.user, ProfileScreen.session_receive]
    rcases ProfileScreen.images_receive himage with hold | ⟨hid, u, key, value, queue, ht, hnew⟩
    · exact Cloud.callbacks_step hstep (h.images i userImage hold)
    · -- the observer is one of this screen, so the image is one of its user
      obtain ⟨t, ht', rfl⟩ := Cloud.step_deliver hstep
      obtain rfl : t = .images u ((key, value) :: queue) := Option.some.inj (ht'.symm.trans ht)
      have huser : u = (g.screens i).session.currentUserID := by
        rcases h.observers i id hid with hread | ⟨queue', hqueue⟩
        · exact absurd (ht.symm.trans hread) (by simp)
        · exact (Task.images.inj (Option.some.inj (ht.symm.trans hqueue))).1
      rw [← huser, Cloud.perform_callbacks, Cloud.callback, hnew]
      exact List.mem_append_left _ List.mem_cons_self

/-- **The step lemma.** -/
theorem Gallery.Kept.step {event : GalleryEvent UIImage} (h : g.Kept)
    (hstep : g.step graphics event = some g') : g'.Kept := by
  cases event with
  | screen i id event =>
    rw [Gallery.step] at hstep
    split at hstep
    · exact absurd hstep (by simp)
    split at hstep
    · exact absurd hstep (by simp)
    · rename_i next hnext
      obtain rfl := Option.some.inj hstep
      exact h.update (ProfileScreen.stepped hnext)
    · rename_i next c hnext
      obtain ⟨s, hs, rfl⟩ := Option.map_eq_some_iff.mp hstep
      exact h.call (ProfileScreen.stepped hnext) hs
  | call id c =>
    rw [Gallery.step] at hstep
    split at hstep
    · exact absurd hstep (by simp)
    · rename_i hc
      obtain ⟨s, hs, rfl⟩ := Option.map_eq_some_iff.mp hstep
      refine h.of_step hs ?_ (fun i k hk ↦ (h.observers i k hk).step (by simp) hs)
        fun i userImage himage ↦ Cloud.callbacks_step hs (h.images i userImage himage)
      intro id' u userImage he
      obtain ⟨-, rfl⟩ := Action.call.inj he
      exact absurd rfl hc
  | deliver id =>
    obtain ⟨s, hs, rfl⟩ := Option.map_eq_some_iff.mp hstep
    exact h.deliver hs
  | fail id =>
    obtain ⟨s, hs, rfl⟩ := Option.map_eq_some_iff.mp hstep
    refine h.of_step hs (by simp) (fun i k hk ↦ ?_)
      fun i userImage himage ↦ Cloud.callbacks_step hs (h.images i userImage himage)
    obtain ⟨hk, hne⟩ := List.mem_filter.mp hk
    have hne : id ≠ k := fun he ↦ by simp [he] at hne
    exact (h.observers i k hk).step (fun he ↦ hne (Action.fail.inj he)) hs

end Step

/-! ## What the whole guarantees -/

/-- No key has a slash in it, neither one that is made nor one that is in use. -/
structure PlainKeys (s : Cloud) : Prop where
  made : ∀ n, components (s.firebase.autoId n) = [s.firebase.autoId n]
  stored : ∀ u key, imageAt u key s.database ≠ [] → components key = [key]

theorem Service.sound_start {s : Cloud} {accounts : UserID → Account}
    (h : Encodes s.database accounts) (hkeys : PlainKeys s) : (Service.start s accounts).Sound where
  complete u userImage himage := absurd himage (by simp [Service.start])
  plain u e he := by
    cases he with
    | stored hmem =>
      refine hkeys.stored u e.id ?_
      rw [imageAt, imagesRef_eq, List.append_assoc, ← snapshot_snapshot]
      exact ((h u).snapshot_images e.id).mpr ⟨e, hmem, rfl⟩
    | written id h => exact absurd h (by simp [Service.start])
    | queued id queue h => exact absurd h (by simp [Service.start])
    | delivered h => exact absurd h (by simp [Service.start])
  keys := hkeys.made

theorem Gallery.kept_opened {s : Cloud} (hs : s.Idle) (h : Describable s.database)
    (hkeys : PlainKeys s) (sessions : ℕ → Session) :
    (Gallery.opened s sessions : Gallery UIImage).Kept where
  service := by
    obtain ⟨accounts, h⟩ := h
    exact ⟨_, represents_start hs h, Service.sound_start h hkeys⟩
  observers i id hid := absurd hid List.not_mem_nil
  images i userImage himage := absurd himage (by simp [Gallery.opened, ProfileScreen.images,
    Cells.opened])
  removed id u key hid := absurd hid (by simp [Gallery.opened, hs.inFlight])

/-- **The screens and the database keep each other sound.**  In every run of any number of profile
screens and whatever else the app calls: the database goes on encoding accounts; a record is only
ever removed by an id that an image delivered to its user had, and that names this record; and
every image that a screen holds has been delivered to the user of the screen, and is complete. -/
theorem gallery_sound {graphics : UIGraphics UIImage} {s : Cloud} {sessions : ℕ → Session}
    {g : Gallery UIImage} {events : List (GalleryEvent UIImage)} (hs : s.Idle)
    (h : Describable s.database) (hkeys : PlainKeys s)
    (hrun : run (Gallery.step graphics) (.opened s sessions) events = some g) :
    Describable g.cloud.database ∧
      (∀ id u key, g.cloud.inFlight id = some (.imageRemove u key) → components key = [key] ∧
        ∃ userImage, Callback.image u userImage ∈ g.cloud.callbacks ∧ userImage.id = some key) ∧
      ∀ i, ∀ userImage ∈ (g.screens i).images,
        Callback.image (g.screens i).user userImage ∈ g.cloud.callbacks ∧
          ∃ e : SavedImage, userImage = e.userImage := by
  have hkept : g.Kept := run_preserves (fun _ _ _ h hstep ↦ Gallery.Kept.step h hstep)
    (Gallery.kept_opened hs h hkeys sessions) hrun
  refine ⟨?_, fun id u key hid ↦ ?_, fun i userImage himage ↦
    ⟨hkept.images i userImage himage, hkept.mem_images himage⟩⟩
  · obtain ⟨v, hrep, -⟩ := hkept.service
    exact ⟨v.accounts, hrep.accounts⟩
  · obtain ⟨userImage, himage, hkey⟩ := hkept.removed id u key hid
    obtain ⟨e, rfl, hplain⟩ := hkept.image himage
    obtain rfl := Option.some.inj hkey
    exact ⟨hplain, e.userImage, himage, rfl⟩

theorem plainKeys_growing : PlainKeys (.start .growing []) where
  made := Firebase.ascending_growing.plain
  stored _ _ hkey := absurd rfl hkey

/-- The screen of `alice` appears, she saves a picture, and the screen is told of it. -/
def savingWhileShown : List (GalleryEvent (ℚ × ℚ)) :=
  [.screen 0 0 .viewWillAppear, .screen 0 0 .register, .deliver 0,
    .call 1 (.addNew alice [1] tower.text tower.name halfPastOne), .deliver 1, .deliver 1,
    .deliver 1, .deliver 0]

/-- Everyone is `alice`. -/
def aliceSessions (_ : ℕ) : Session := { Session.fresh with storedUserID := some alice }

theorem gallery_sound_savingWhileShown : ∃ g,
    run (Gallery.step DetailScreen.plainGraphics) (.opened (.start .growing []) aliceSessions)
      savingWhileShown = some g ∧ Describable g.cloud.database ∧
      ∀ userImage ∈ (g.screens 0).images, ∃ e : SavedImage, userImage = e.userImage := by
  obtain ⟨g, hg⟩ : ∃ g, run (Gallery.step DetailScreen.plainGraphics)
    (.opened (.start .growing []) aliceSessions) savingWhileShown = some g := ⟨_, rfl⟩
  obtain ⟨hdatabase, -, himages⟩ :=
    gallery_sound (Cloud.idle_start _ _) describable_nil plainKeys_growing hg
  exact ⟨g, hg, hdatabase, fun userImage himage ↦ (himages 0 userImage himage).2⟩

/-! ## When a screen traps -/

section Screen

variable (graphics : UIGraphics UIImage)

/-- Neither screen has trapped, none of the pending blocks of the grid would if the main queue ran
them next, and the detail screen has shared nothing it does not have. -/
def ProfileScreen.Safe (screen : ProfileScreen UIImage) : Prop :=
  screen.cells.Safe ∧ ∀ detail ∈ screen.detail, detail.Safe

/-- The grid is not emptied while the block of a cell is pending, and the photo of the detail
screen is not used before it is there. -/
def ProfileScreen.Calm (screen : ProfileScreen UIImage) : ProfileEvent UIImage → Prop
  | .viewWillAppear => screen.cells.rows = []
  | .detail .share => ∀ detail ∈ screen.detail, DetailScreen.InTime graphics detail .share
  | .detail .download => ∀ detail ∈ screen.detail, DetailScreen.InTime graphics detail .download
  | _ => True

/-- The detail screen knows how far its photo has been loaded. -/
def ProfileScreen.Tracks (screen : ProfileScreen UIImage) : Prop :=
  ∀ detail ∈ screen.detail, DetailScreen.Tracks graphics detail

variable {graphics} {screen next : ProfileScreen UIImage} {c : Option Call}

/-- Sharing and saving do not dismiss the detail screen. -/
theorem DetailScreen.any_isDismiss {session : Session} {detail after : DetailScreen UIImage}
    {event : DetailEvent UIImage} (hevent : event = .share ∨ event = .download)
    (h : detail.step graphics session event = some after) :
    (detail.added after).any DetailEffect.isDismiss = false := by
  have hadded : ∀ effects, after.effects = effects ++ detail.effects →
      effects.any DetailEffect.isDismiss = false →
        (detail.added after).any DetailEffect.isDismiss = false := by
    intro effects heffects hany
    rw [DetailScreen.added_eq heffects, hany]
  obtain ⟨-, -, rfl⟩ := DetailScreen.step_eq_some h
  rcases hevent with rfl | rfl
  · exact hadded [_] rfl rfl
  · rw [DetailScreen.handle, DetailScreen.downloadHandler] at hadded ⊢
    split at hadded
    · exact hadded [] rfl rfl
    · exact hadded [_] rfl rfl

/-- The detail screen takes a step: a safe screen stays safe exactly if it is in time. -/
theorem ProfileScreen.safe_detail_iff (hs : screen.Safe) (ht : screen.Tracks graphics)
    (hlinks : ∀ userImage ∈ screen.images, userImage.imageURL.isSome) {event : DetailEvent UIImage}
    (h : screen.step graphics (.detail event) = some (next, c)) :
    next.Safe ↔ screen.Calm graphics (.detail event) := by
  obtain ⟨detail, hdetail, h⟩ := Option.bind_eq_some_iff.mp h
  obtain ⟨after, hstep, he⟩ := Option.map_eq_some_iff.mp h
  obtain ⟨rfl, rfl⟩ := Prod.mk.inj he
  have hafter : after.Safe ↔ DetailScreen.InTime graphics detail event :=
    DetailScreen.safe_step_iff (hs.2 detail hdetail) (ht detail hdetail) hstep
  have hkeep : DetailScreen.InTime graphics detail event → ProfileScreen.Safe
      { screen with detail := if (detail.added after).any DetailEffect.isDismiss then none
                              else some after } := by
    refine fun hin ↦ ⟨hs.1, fun d hd ↦ ?_⟩
    split at hd
    · exact absurd hd (by simp)
    · obtain rfl := Option.some.inj hd
      exact hafter.mpr hin
  have hdismiss : (event = .share ∨ event = .download) →
      (ProfileScreen.Safe { screen with
          detail := if (detail.added after).any DetailEffect.isDismiss then none else some after } ↔
        DetailScreen.InTime graphics detail event) := by
    intro hevent
    refine ⟨fun hsafe ↦ hafter.mp (hsafe.2 after ?_), hkeep⟩
    rw [DetailScreen.any_isDismiss hevent hstep]
    rfl
  cases event with
  | share =>
    refine (hdismiss (by simp)).trans ?_
    simp [ProfileScreen.Calm, hdetail]
  | download =>
    refine (hdismiss (by simp)).trans ?_
    simp [ProfileScreen.Calm, hdetail]
  | runBlock =>
    -- the image has a link, as every image has
    refine iff_of_true (hkeep (hlinks _ (List.mem_append_right _ ?_))) trivial
    simp [hdetail]
  | downloaded image => exact iff_of_true (hkeep trivial) trivial
  | trash => exact iff_of_true (hkeep trivial) trivial
  | answer delete => exact iff_of_true (hkeep trivial) trivial
  | cancel => exact iff_of_true (hkeep trivial) trivial

/-- What the grid has to be asked, when every image has a link. -/
theorem ProfileScreen.calm_iff (hlinks : ∀ userImage ∈ screen.images, userImage.imageURL.isSome)
    {event : ProfileEvent UIImage} {e : CellEvent} {cells : Cells} (he : event.cell? = some e)
    (hstep : screen.cells.step e = some cells) :
    screen.cells.Calm e ↔ screen.Calm graphics event := by
  cases event with
  | viewWillAppear =>
    obtain rfl := Option.some.inj he
    rfl
  | cellForItemAt row =>
    obtain rfl := Option.some.inj he
    refine iff_of_true ?_ trivial
    rw [Cells.step] at hstep
    split at hstep
    · exact absurd hstep (by simp)
    · rename_i hrow
      have hlt : row < screen.cells.userImageObjects.length := by omega
      rw [Cells.Calm, Cells.imageURL, List.getElem?_eq_getElem hlt, Option.bind_some]
      exact hlinks _ (List.mem_append_left _ (List.getElem_mem hlt))
  | runBlock =>
    obtain rfl := Option.some.inj he
    rfl
  | register | didSelectItemAt row | detail event => exact absurd he (by simp [ProfileEvent.cell?])

/-- **A safe screen stays safe exactly if the step is calm**, when every image it holds has a
link. -/
theorem ProfileScreen.safe_step_iff (hs : screen.Safe) (ht : screen.Tracks graphics)
    (hlinks : ∀ userImage ∈ screen.images, userImage.imageURL.isSome)
    {event : ProfileEvent UIImage} (h : screen.step graphics event = some (next, c)) :
    next.Safe ↔ screen.Calm graphics event := by
  cases ProfileScreen.transition h with
  | grid n he hstep =>
    rw [← ProfileScreen.calm_iff hlinks he hstep, ← ready_step (safe_iff.mp hs.1) hstep, ← safe_iff]
    exact and_iff_left hs.2
  | register n => exact iff_of_true hs trivial
  | @select row userImage hrow =>
    refine iff_of_true ⟨hs.1, fun detail hdetail ↦ ?_⟩ trivial
    obtain rfl := Option.some.inj hdetail
    exact ⟨rfl, fun _ _ hshare ↦ absurd hshare List.not_mem_nil⟩
  | detail => exact ProfileScreen.safe_detail_iff hs ht hlinks h

theorem ProfileScreen.tracks_step (ht : screen.Tracks graphics) {event : ProfileEvent UIImage}
    (h : screen.step graphics event = some (next, c)) : next.Tracks graphics := by
  cases ProfileScreen.transition h with
  | grid n he hstep => exact ht
  | register n => exact ht
  | @select row userImage hrow =>
    intro detail hdetail
    obtain rfl := Option.some.inj hdetail
    exact DetailScreen.tracks_opened userImage
  | @detail event detail after hdetail hstep =>
    intro d hd
    simp only at hd
    split at hd
    · exact absurd hd (by simp)
    · obtain rfl := Option.some.inj hd
      exact DetailScreen.tracks_step (ht detail hdetail) hstep

/-- What an observer passes on does not make a screen less safe. -/
theorem ProfileScreen.safe_receive (hs : screen.Safe) (id : ℕ) (t : Option Task) :
    (screen.receive id t).Safe := by
  rw [ProfileScreen.receive.eq_def]
  split
  · rename_i u key value queue
    split
    · refine ⟨?_, hs.2⟩
      cases hstep : screen.cells.step (.childAdded key value) with
      | none => exact hs.1
      | some cells => exact safe_iff.mpr ((ready_step (safe_iff.mp hs.1) hstep).mpr trivial)
    · exact hs
  · exact hs

@[simp] theorem ProfileScreen.detail_receive (screen : ProfileScreen UIImage) (id : ℕ)
    (t : Option Task) : (screen.receive id t).detail = screen.detail := by
  obtain ⟨cells, h⟩ := screen.exists_receive_eq id t
  rw [h]

theorem ProfileScreen.safe_remember (id : ℕ) (c : Call) :
    (screen.remember id c).Safe ↔ screen.Safe := by
  cases c <;> rfl

theorem ProfileScreen.tracks_remember (id : ℕ) (c : Call) :
    (screen.remember id c).Tracks graphics ↔ screen.Tracks graphics := by
  cases c <;> rfl

end Screen

section Safe

variable {graphics : UIGraphics UIImage} {g g' : Gallery UIImage} {event : GalleryEvent UIImage}

/-- Every screen is safe. -/
def Gallery.Safe (g : Gallery UIImage) : Prop := ∀ i, (g.screens i).Safe

/-- What happens on a screen is calm. -/
def Gallery.Calm (graphics : UIGraphics UIImage) (g : Gallery UIImage) :
    GalleryEvent UIImage → Prop
  | .screen i _ event => (g.screens i).Calm graphics event
  | _ => True

/-- What a step makes of the screens. -/
theorem Gallery.screens_step (hstep : g.step graphics event = some g') :
    (∃ i id event' next c, event = .screen i id event' ∧
      (g.screens i).step graphics event' = some (next, c) ∧
        (g'.screens = Function.update g.screens i next ∨
          ∃ c', g'.screens = Function.update g.screens i (next.remember id c'))) ∨
    ((∀ i id event', event ≠ .screen i id event') ∧ ∀ i, g'.screens i = g.screens i ∨
      (∃ id, g'.screens i = (g.screens i).receive id (g.cloud.inFlight id)) ∨
        ∃ observers, g'.screens i = { g.screens i with observers := observers }) := by
  cases event with
  | screen i id event =>
    rw [Gallery.step] at hstep
    split at hstep
    · exact absurd hstep (by simp)
    split at hstep
    · exact absurd hstep (by simp)
    · rename_i next hnext
      obtain rfl := Option.some.inj hstep
      exact Or.inl ⟨i, id, event, next, none, rfl, hnext, Or.inl rfl⟩
    · rename_i next c hnext
      obtain ⟨s, -, rfl⟩ := Option.map_eq_some_iff.mp hstep
      exact Or.inl ⟨i, id, event, next, some c, rfl, hnext, Or.inr ⟨c, rfl⟩⟩
  | call id c =>
    rw [Gallery.step] at hstep
    split at hstep
    · exact absurd hstep (by simp)
    · obtain ⟨s, -, rfl⟩ := Option.map_eq_some_iff.mp hstep
      exact Or.inr ⟨by simp, fun i ↦ Or.inl rfl⟩
  | deliver id =>
    obtain ⟨s, -, rfl⟩ := Option.map_eq_some_iff.mp hstep
    exact Or.inr ⟨by simp, fun i ↦ Or.inr (Or.inl ⟨id, rfl⟩)⟩
  | fail id =>
    obtain ⟨s, -, rfl⟩ := Option.map_eq_some_iff.mp hstep
    exact Or.inr ⟨by simp, fun i ↦ Or.inr (Or.inr ⟨_, rfl⟩)⟩

/-- The detail screens go on knowing how far their photos have been loaded. -/
theorem Gallery.tracks_step (ht : ∀ i, (g.screens i).Tracks graphics)
    (hstep : g.step graphics event = some g') (j : ℕ) : (g'.screens j).Tracks graphics := by
  rcases Gallery.screens_step hstep with ⟨i, id, event', next, c, -, hnext, hscreens⟩ |
    ⟨-, hscreens⟩
  · have hnext' := ProfileScreen.tracks_step (ht i) hnext
    rcases hscreens with hscreens | ⟨c', hscreens⟩ <;> rw [hscreens] <;>
      rcases eq_or_ne j i with rfl | hne
    · rwa [Function.update_self]
    · rw [Function.update_of_ne hne]
      exact ht j
    · rw [Function.update_self]
      exact (ProfileScreen.tracks_remember id c').mpr hnext'
    · rw [Function.update_of_ne hne]
      exact ht j
  · rcases hscreens j with hj | ⟨id, hj⟩ | ⟨observers, hj⟩ <;> rw [hj]
    · exact ht j
    · intro detail hdetail
      rw [ProfileScreen.detail_receive] at hdetail
      exact ht j detail hdetail
    · exact ht j

/-- **Safe screens stay safe exactly if the step is calm.** -/
theorem Gallery.safe_step_iff (h : g.Kept) (ht : ∀ i, (g.screens i).Tracks graphics)
    (hs : g.Safe) (hstep : g.step graphics event = some g') : g'.Safe ↔ g.Calm graphics event := by
  rcases Gallery.screens_step hstep with ⟨i, id, event', next, c, rfl, hnext, hscreens⟩ |
    ⟨hevent, hscreens⟩
  · have hlinks : ∀ userImage ∈ (g.screens i).images, userImage.imageURL.isSome := by
      intro userImage himage
      obtain ⟨e, rfl⟩ := h.mem_images himage
      rfl
    have hsafe : next.Safe ↔ (g.screens i).Calm graphics event' :=
      ProfileScreen.safe_step_iff (hs i) (ht i) hlinks hnext
    have hothers : ∀ {screen : ProfileScreen UIImage},
        (∀ j, (Function.update g.screens i screen j).Safe) ↔ screen.Safe := by
      intro screen
      refine ⟨fun hall ↦ by simpa using hall i, fun hscreen j ↦ ?_⟩
      rcases eq_or_ne j i with rfl | hne
      · rwa [Function.update_self]
      · rw [Function.update_of_ne hne]
        exact hs j
    rw [Gallery.Safe, Gallery.Calm, ← hsafe]
    rcases hscreens with hscreens | ⟨c', hscreens⟩ <;> rw [hscreens, hothers]
    exact ProfileScreen.safe_remember id c'
  · refine iff_of_true (fun j ↦ ?_) ?_
    · rcases hscreens j with hj | ⟨id, hj⟩ | ⟨observers, hj⟩ <;> rw [hj]
      · exact hs j
      · exact ProfileScreen.safe_receive (hs j) id _
      · exact hs j
    · cases event with
      | screen i id event' => exact absurd rfl (hevent i id event')
      | call | deliver | fail => trivial

/-- **Only two dangers are left.**  With the pictures the database delivers, the profile screens and
their detail screens stay safe throughout a run, so that nothing has trapped, no pending block of a
cell would trap if it were run next, and no photo or text that is missing has been shared, if and
only if no grid is emptied while the block of one of its cells is pending, and no photo is shared or
saved before it is there. -/
theorem gallery_safe_iff {s : Cloud} {sessions : ℕ → Session}
    {events : List (GalleryEvent UIImage)} (hs : s.Idle) (h : Describable s.database)
    (hkeys : PlainKeys s)
    (hrun : run (Gallery.step graphics) (.opened s sessions) events = some g) :
    Throughout (Gallery.step graphics) Gallery.Safe (.opened s sessions) events ↔
      Meets (Gallery.step graphics) (Gallery.Calm graphics) (.opened s sessions) events := by
  have hopened : (Gallery.opened s sessions : Gallery UIImage).Safe := fun i ↦
    ⟨safe_iff.mpr ⟨rfl, fun row hrow ↦ absurd hrow List.not_mem_nil⟩, by simp [Gallery.opened]⟩
  exact (meets_iff_throughout (I := fun g ↦ g.Kept ∧ ∀ i, (g.screens i).Tracks graphics)
    (fun _ _ _ hi _ _ hstep ↦ ⟨hi.1.step hstep, Gallery.tracks_step hi.2 hstep⟩)
    (fun _ _ _ hi hs hstep ↦ Gallery.safe_step_iff hi.1 hi.2 hs hstep)
    ⟨Gallery.kept_opened hs h hkeys sessions, fun i ↦ by simp [Gallery.opened,
      ProfileScreen.Tracks]⟩ hopened hrun).symm

theorem gallery_safe_savingWhileShown :
    Throughout (Gallery.step DetailScreen.plainGraphics) Gallery.Safe
      (.opened (.start .growing []) aliceSessions) savingWhileShown := by
  obtain ⟨g, hg⟩ : ∃ g, run (Gallery.step DetailScreen.plainGraphics)
    (.opened (.start .growing []) aliceSessions) savingWhileShown = some g := ⟨_, rfl⟩
  refine (gallery_safe_iff (Cloud.idle_start _ _) describable_nil plainKeys_growing hg).mpr ?_
  rw [savingWhileShown, meets_cons rfl, meets_cons rfl, meets_cons rfl, meets_cons rfl,
    meets_cons rfl, meets_cons rfl, meets_cons rfl, meets_cons rfl]
  exact ⟨rfl, trivial, trivial, trivial, trivial, trivial, trivial, trivial, trivial⟩

end Safe

end LandCap
