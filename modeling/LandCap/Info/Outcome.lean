import LandCap.Info.Detected

/-!
# How Process and Save end

Both buttons start the spinner and hand the rest to a chain of callbacks, and it is these that stop
the spinner and tell the user something.  A step that calls nothing back leaves the screen as it is.

`process` is the chain of the Process button: the quota, and then the detector, whose landmarks and
whose error are looked at by two `if`s that know nothing of each other.  It ends well exactly if the
quota is there and, where the detector is asked, there is an image to ask about and it answers with
either landmarks or an error (`process_ends_iff`).

`SaveScreen` is the screen of the Save button next to the cloud.  Nothing listens to a step that
fails, and the callback that reports the record as saved is made when the write has only been
started; so a save ends well exactly if none of its steps fails (`save_ends_iff`), whatever else
happens in the cloud.
-/

set_option autoImplicit false

namespace LandCap

open PathTree Runs

variable {UIImage : Type}

/-! ## Process -/

/-- The screen of the Process button. -/
structure Processed (UIImage : Type) where
  spinning : Bool
  alerts : List Alert
  presented : Option (InfoController UIImage)
  trapped : Bool

/-- The spinner has been started. -/
def Processed.waiting : Processed UIImage where
  spinning := true
  alerts := []
  presented := none
  trapped := false

namespace PhotoController

variable (kit : UIKit UIImage) (session : Session) (imageData : Data)
  (landmarks : Option (List VisionCloudLandmark)) (error : Option String)

/-- The callback of `photoLimit` in `processHandler` is called, and the detector, if it is asked,
answers with these landmarks and this error. -/
def called (s : Processed UIImage) : Callback → Processed UIImage
  | .limit _ limit =>
    match limited kit session imageData limit with
    | .alert alert => { s with spinning := false, alerts := s.alerts ++ [alert] }
    | .trap => { s with trapped := true }
    | .detect _ =>
      let answer : Detected UIImage := detected imageData landmarks error
      { s with
        spinning := s.spinning && !answer.stopsSpinner
        alerts := s.alerts ++ answer.alerts
        presented := answer.presented }
  | .trap _ => { s with trapped := true }
  | _ => s

/-- `processHandler` with its callbacks; the cloud is the one in which the quota is read. -/
def process (cloud : Cloud) : Processed UIImage :=
  match (processHandler session).bind Call.task with
  | none => { Processed.waiting with trapped := true }
  | some task =>
    (cloud.callback task).foldl (called kit session imageData landmarks error) .waiting

end PhotoController

/-- The spinner has stopped, and there is either one alert or a new screen. -/
@[mk_iff]
structure Processed.Ends (s : Processed UIImage) : Prop where
  running : s.trapped = false
  stopped : s.spinning = false
  once : (s.presented.isSome ∧ s.alerts = []) ∨ (s.presented = none ∧ s.alerts.length = 1)

/-- The quota is a number, and if it allows a photo, there is an image and the detector answers
with either landmarks or an error. -/
def Processable (kit : UIKit UIImage) (session : Session) (imageData : Data)
    (landmarks : Option (List VisionCloudLandmark)) (error : Option String)
    (cloud : Cloud) : Prop :=
  ∃ userID limit, session.activeID = some userID ∧
    readPhotoLimit (snapshot (userRef userID) cloud.database) = .count limit ∧
    (0 < limit → (kit.ofData imageData).isSome ∧ (landmarks.isSome ↔ error = none))

section Process

variable {kit : UIKit UIImage} {session : Session} {imageData : Data}
  {landmarks : Option (List VisionCloudLandmark)} {error : Option String} {cloud : Cloud}

open PhotoController

/-- **The detector's answer** ends the process exactly if it is either landmarks or an error. -/
theorem detected_ends_iff {answer : Detected UIImage}
    (h : answer = detected imageData landmarks error) :
    Processed.Ends
        { spinning := !answer.stopsSpinner
          alerts := answer.alerts
          presented := answer.presented
          trapped := false } ↔ (landmarks.isSome ↔ error = none) := by
  subst h
  rcases landmarks with - | (- | ⟨landmark, rest⟩) <;> rcases error with - | error
  all_goals simp [Processed.ends_iff, detected]

theorem called_limit_ends_iff (userID : UserID) (limit : ℤ) :
    (called kit session imageData landmarks error .waiting (.limit userID limit)).Ends ↔
      (0 < limit → (kit.ofData imageData).isSome ∧ (landmarks.isSome ↔ error = none)) := by
  rw [called, limited]
  by_cases hlimit : limit > 0
  · rw [if_pos hlimit]
    cases kit.ofData imageData with
    | none => simp [Processed.ends_iff, hlimit]
    | some image =>
      have hiff := detected_ends_iff (rfl : (detected imageData landmarks error : Detected UIImage)
        = detected imageData landmarks error)
      simpa [hlimit, Processed.waiting] using hiff
  · rw [if_neg hlimit]
    refine iff_of_true ⟨rfl, rfl, Or.inr ⟨rfl, rfl⟩⟩ fun h ↦ absurd h hlimit

/-- **Process ends well** exactly if the quota is there, and the detector, where it is asked, gives
one answer. -/
theorem process_ends_iff :
    (process kit session imageData landmarks error cloud).Ends ↔
      Processable kit session imageData landmarks error cloud := by
  rw [process, processHandler]
  cases hactive : session.activeID with
  | none =>
    refine iff_of_false (fun h ↦ Bool.false_ne_true h.running.symm) ?_
    rintro ⟨userID, limit, hid, -⟩
    exact absurd (hactive.symm.trans hid) (by simp)
  | some userID =>
    have hiff : ∀ read, readPhotoLimit (snapshot (userRef userID) cloud.database) = read →
        (Processable kit session imageData landmarks error cloud ↔ ∃ limit, read = .count limit ∧
          (0 < limit → (kit.ofData imageData).isSome ∧ (landmarks.isSome ↔ error = none))) := by
      rintro read rfl
      refine ⟨?_, fun ⟨limit, h⟩ ↦ ⟨userID, limit, hactive, h⟩⟩
      rintro ⟨u, limit, hu, h⟩
      obtain rfl : u = userID := Option.some.inj (hu.symm.trans hactive)
      exact ⟨limit, h⟩
    simp only [Option.map_some, Option.bind_some, Call.task, Cloud.callback]
    cases hread : readPhotoLimit (snapshot (userRef userID) cloud.database) with
    | missing =>
      rw [hiff _ hread]
      exact iff_of_false (fun h ↦ Bool.false_ne_true h.stopped.symm) (by simp)
    | trap =>
      rw [hiff _ hread]
      exact iff_of_false (fun h ↦ Bool.false_ne_true h.running.symm) (by simp)
    | count limit =>
      rw [hiff _ hread, List.foldl_cons, List.foldl_nil, called_limit_ends_iff]
      simp

end Process

/-! ## Save -/

/-- The alert of `handleAlert`. -/
def savedAlert : Alert := ⟨.localized "Wiki Firebase Title", .localized "Wiki Firebase Message"⟩

/-- The screen of the Save button, and the cloud. -/
structure SaveScreen where
  cloud : Cloud
  spinning : Bool
  /-- The buttons of the navigation bar are enabled. -/
  buttonsEnabled : Bool
  alerts : List Alert
  /-- The record of this save has been written. -/
  written : Bool
  trapped : Bool

/-- Save is pressed, and the call it makes gets the name `id`. -/
def InfoController.pressSave (controller : InfoController UIImage) (session : Session)
    (now : Clock) (cloud : Cloud) (id : ℕ) : Option SaveScreen :=
  match controller.saveHandler session now with
  | .alert alert => some
      { cloud := cloud, spinning := false, buttonsEnabled := true, alerts := [alert]
        written := false, trapped := false }
  | .trap => some
      { cloud := cloud, spinning := true, buttonsEnabled := false, alerts := []
        written := false, trapped := true }
  | .call c => (cloud.step (.call id c)).map fun cloud ↦
      { cloud := cloud, spinning := true, buttonsEnabled := false, alerts := []
        written := false, trapped := false }

/-- What the callback of `addNew` does. -/
def SaveScreen.called (s : SaveScreen) : Callback → SaveScreen
  | .saved _ => { s with spinning := false, alerts := s.alerts ++ [savedAlert] }
  | _ => s

/-- The step writes a record. -/
def Task.writesRecord : Task → Bool
  | .imageWrite .. => true
  | _ => false

/-- An action of the cloud, with what it does to the screen whose call is `id`. -/
def SaveScreen.step (id : ℕ) (s : SaveScreen) : Action → Option SaveScreen
  | .deliver j =>
    if j = id then
      (s.cloud.inFlight id).map fun t ↦
        { (s.cloud.callback t).foldl SaveScreen.called s with
          cloud := s.cloud.perform id t
          written := s.written || t.writesRecord }
    else (s.cloud.step (.deliver j)).map fun cloud ↦ { s with cloud := cloud }
  | a => (s.cloud.step a).map fun cloud ↦ { s with cloud := cloud }

/-- The spinner has stopped, and the user knows what has become of the record: it is reported as
saved and has been written, or something else is reported and Save can be pressed again. -/
structure SaveScreen.Ends (s : SaveScreen) : Prop where
  running : s.trapped = false
  stopped : s.spinning = false
  reported : (savedAlert ∈ s.alerts ∧ s.written = true) ∨
    (savedAlert ∉ s.alerts ∧ s.alerts ≠ [] ∧ s.buttonsEnabled = true)

/-- Nothing has been called back. -/
structure SaveScreen.Waits (s : SaveScreen) : Prop where
  running : s.trapped = false
  spinning : s.spinning = true
  alerts : s.alerts = []
  written : s.written = false

/-- The callback has been made. -/
structure SaveScreen.Reported (s : SaveScreen) : Prop where
  running : s.trapped = false
  stopped : s.spinning = false
  alerts : s.alerts = [savedAlert]

/-- How far a save is of which no step has failed. -/
def SaveScreen.Phase (id : ℕ) (s : SaveScreen) : Prop :=
  (s.Waits ∧ ∃ u path data text name,
    s.cloud.inFlight id = some (.putData u path data (.record text name))) ∨
  (s.Waits ∧ ∃ u path text name,
    s.cloud.inFlight id = some (.downloadURL u path (.record text name))) ∨
  (s.Reported ∧ s.written = false ∧ ∃ u key link text name,
    s.cloud.inFlight id = some (.imageWrite u key link text name)) ∨
  (s.Reported ∧ s.written = true ∧ s.cloud.inFlight id = none)

section Save

variable {id : ℕ} {s s' t : SaveScreen}

/-- An action of another call changes only the cloud. -/
theorem SaveScreen.step_of_ne {a : Action} (ha : a.id ≠ id) (h : s.step id a = some s') :
    ∃ cloud, s.cloud.step a = some cloud ∧ s' = { s with cloud := cloud } := by
  cases a with
  | call j c | fail j =>
    obtain ⟨cloud, hcloud, rfl⟩ := Option.map_eq_some_iff.mp h
    exact ⟨cloud, hcloud, rfl⟩
  | deliver j =>
    have hne : j ≠ id := ha
    rw [SaveScreen.step, if_neg hne] at h
    obtain ⟨cloud, hcloud, rfl⟩ := Option.map_eq_some_iff.mp h
    exact ⟨cloud, hcloud, rfl⟩

theorem SaveScreen.step_deliver {u : Task} (hu : s.cloud.inFlight id = some u)
    (h : s.step id (.deliver id) = some s') :
    s' = { (s.cloud.callback u).foldl SaveScreen.called s with
      cloud := s.cloud.perform id u
      written := s.written || u.writesRecord } := by
  rw [SaveScreen.step, if_pos rfl, hu] at h
  exact (Option.some.inj h).symm

/-- **A record counts as written when it is in the database.** -/
theorem written_step {a : Action} (hs : s.written = false) (h : s.step id a = some s')
    (hw : s'.written = true) : ∃ u key link text name,
      snapshot (imagesRef u ++ [key]) s'.cloud.database = imageRecord link text name := by
  by_cases ha : a.id = id
  · cases a with
    | call j c | fail j =>
      obtain ⟨cloud, -, rfl⟩ := Option.map_eq_some_iff.mp h
      exact absurd (hs.symm.trans hw) (by decide)
    | deliver j =>
      obtain rfl : j = id := ha
      obtain ⟨u, hu⟩ : ∃ u, s.cloud.inFlight j = some u := by
        rw [SaveScreen.step, if_pos rfl] at h
        obtain ⟨u, hu, -⟩ := Option.map_eq_some_iff.mp h
        exact ⟨u, hu⟩
      obtain rfl := SaveScreen.step_deliver hu h
      cases u <;> simp only [hs, Task.writesRecord, Bool.or_self, Bool.false_eq_true] at hw
      case imageWrite v key link text name =>
        exact ⟨v, key, link, text, name, snapshot_setValue_self _ _ _⟩
  · obtain ⟨cloud, -, rfl⟩ := SaveScreen.step_of_ne ha h
    exact absurd (hs.symm.trans hw) (by decide)

theorem SaveScreen.Phase.ends (hs : s.Phase id) (hid : s.cloud.inFlight id = none) : s.Ends := by
  rcases hs with ⟨-, h⟩ | ⟨-, h⟩ | ⟨-, -, h⟩ | ⟨hr, hw, -⟩
  · obtain ⟨u, path, data, text, name, h⟩ := h
    exact absurd (hid.symm.trans h) (by simp)
  · obtain ⟨u, path, text, name, h⟩ := h
    exact absurd (hid.symm.trans h) (by simp)
  · obtain ⟨u, key, link, text, name, h⟩ := h
    exact absurd (hid.symm.trans h) (by simp)
  · exact ⟨hr.running, hr.stopped, Or.inl ⟨by rw [hr.alerts]; exact List.mem_cons_self, hw⟩⟩

/-- **A step that does not fail** takes the save one phase on. -/
theorem phase_step {a : Action} (hs : s.Phase id) (hfail : a ≠ .fail id)
    (hcall : ∀ c, a ≠ .call id c) (h : s.step id a = some s') : s'.Phase id := by
  by_cases ha : a.id = id
  · obtain rfl : a = .deliver id := by
      cases a with
      | call j c => exact absurd (ha ▸ rfl) (hcall c)
      | deliver j => exact congrArg Action.deliver ha
      | fail j => exact absurd (ha ▸ rfl) hfail
    rcases hs with ⟨hw, u, path, data, text, name, hid⟩ | ⟨hw, u, path, text, name, hid⟩ |
      ⟨hr, hw, u, key, link, text, name, hid⟩ | ⟨-, -, hid⟩
    · obtain rfl := SaveScreen.step_deliver hid h
      refine Or.inr (Or.inl ⟨⟨hw.running, hw.spinning, hw.alerts, ?_⟩, u, path, text, name, ?_⟩)
      · rw [hw.written]; rfl
      · exact s.cloud.perform_inFlight_self id _
    · obtain rfl := SaveScreen.step_deliver hid h
      have hnext := s.cloud.perform_inFlight_self id (.downloadURL u path (.record text name))
      refine Or.inr (Or.inr (Or.inl ⟨⟨hw.running, rfl, ?_⟩, ?_, u, _, _, text, name, hnext⟩))
      · exact congrArg (· ++ [savedAlert]) hw.alerts
      · rw [hw.written]; rfl
    · obtain rfl := SaveScreen.step_deliver hid h
      refine Or.inr (Or.inr (Or.inr ⟨⟨hr.running, hr.stopped, hr.alerts⟩, ?_, ?_⟩))
      · exact Bool.or_true _
      · exact s.cloud.perform_inFlight_self id _
    · rw [SaveScreen.step, if_pos rfl, hid] at h
      exact absurd h (by simp)
  · obtain ⟨cloud, hcloud, rfl⟩ := SaveScreen.step_of_ne ha h
    have hkeep : ∀ t, (∀ u q, t ≠ some (.images u q)) → s.cloud.inFlight id = t →
        cloud.inFlight id = t := fun t ht ↦ Cloud.step_inFlight_of_ne ha ht hcloud
    rcases hs with ⟨hw, u, path, data, text, name, hid⟩ | ⟨hw, u, path, text, name, hid⟩ |
      ⟨hr, hw, u, key, link, text, name, hid⟩ | ⟨hr, hw, hid⟩
    · exact Or.inl ⟨⟨hw.running, hw.spinning, hw.alerts, hw.written⟩, u, path, data, text, name,
        hkeep _ (by simp) hid⟩
    · exact Or.inr (Or.inl ⟨⟨hw.running, hw.spinning, hw.alerts, hw.written⟩, u, path, text, name,
        hkeep _ (by simp) hid⟩)
    · exact Or.inr (Or.inr (Or.inl ⟨⟨hr.running, hr.stopped, hr.alerts⟩, hw, u, key, link, text,
        name, hkeep _ (by simp) hid⟩))
    · exact Or.inr (Or.inr (Or.inr ⟨⟨hr.running, hr.stopped, hr.alerts⟩, hw,
        hkeep _ (by simp) hid⟩))

/-- The call is over, and the screen has not come to an end. -/
structure SaveScreen.Lost (id : ℕ) (s : SaveScreen) : Prop where
  inFlight : s.cloud.inFlight id = none
  ends : ¬s.Ends

/-- **A step that fails** tells the screen nothing. -/
theorem lost_fail (hs : s.Phase id) (h : s.step id (.fail id) = some s') : s'.Lost id := by
  obtain ⟨cloud, hcloud, rfl⟩ := Option.map_eq_some_iff.mp h
  obtain rfl := Cloud.step_fail hcloud
  refine ⟨Function.update_self _ _ _, fun he ↦ ?_⟩
  rcases hs with ⟨hw, -⟩ | ⟨hw, -⟩ | ⟨hr, hw, -⟩ | ⟨-, -, hid⟩
  · exact absurd (hw.spinning.symm.trans he.stopped) (by decide)
  · exact absurd (hw.spinning.symm.trans he.stopped) (by decide)
  · rcases he.reported with ⟨-, hwritten⟩ | ⟨hno, -⟩
    · exact absurd (hw.symm.trans hwritten) (by decide)
    · exact hno (hr.alerts ▸ List.mem_cons_self)
  · rw [Cloud.step, hid] at hcloud
    exact absurd hcloud (by simp)

/-- Nothing tells it anything afterwards. -/
theorem lost_step {a : Action} (hs : s.Lost id) (hcall : ∀ c, a ≠ .call id c)
    (h : s.step id a = some s') : s'.Lost id := by
  by_cases ha : a.id = id
  · cases a with
    | call j c => exact absurd (ha ▸ rfl) (hcall c)
    | deliver j =>
      obtain rfl : j = id := ha
      rw [SaveScreen.step, if_pos rfl, hs.inFlight] at h
      exact absurd h (by simp)
    | fail j =>
      obtain rfl : j = id := ha
      obtain ⟨cloud, hcloud, -⟩ := Option.map_eq_some_iff.mp h
      rw [Cloud.step, hs.inFlight] at hcloud
      exact absurd hcloud (by simp)
  · obtain ⟨cloud, hcloud, rfl⟩ := SaveScreen.step_of_ne ha h
    exact ⟨Cloud.step_inFlight_of_ne ha (by simp) hcloud hs.inFlight,
      fun he ↦ hs.ends ⟨he.running, he.stopped, he.reported⟩⟩

/-- Without a failure the save goes through its phases. -/
theorem phase_run {es : List Action} (hs : s.Phase id) (hfail : .fail id ∉ es)
    (hcalls : ∀ c, .call id c ∉ es) (hrun : run (SaveScreen.step id) s es = some t) :
    t.Phase id := by
  refine run_invariant (P := fun _ a ↦ a ≠ .fail id ∧ ∀ c, a ≠ .call id c)
    (fun m a m' hm ha hstep ↦ phase_step hm ha.1 ha.2 hstep) hs (Meets.of_mem fun a ha ↦ ?_) hrun
  exact ⟨fun he ↦ hfail (he ▸ ha), fun c he ↦ hcalls c (he ▸ ha)⟩

theorem lost_run {es : List Action} (hs : s.Lost id) (hcalls : ∀ c, .call id c ∉ es)
    (hrun : run (SaveScreen.step id) s es = some t) : t.Lost id := by
  refine run_invariant (P := fun _ a ↦ ∀ c, a ≠ .call id c)
    (fun m a m' hm ha hstep ↦ lost_step hm ha hstep) hs (Meets.of_mem fun a ha ↦ ?_) hrun
  exact fun c he ↦ hcalls c (he ▸ ha)

/-- A save with a failing step is lost from there on. -/
theorem lost_of_fail {es : List Action} (hs : s.Phase id) (hfail : .fail id ∈ es)
    (hcalls : ∀ c, .call id c ∉ es) (hrun : run (SaveScreen.step id) s es = some t) :
    t.Lost id := by
  obtain ⟨bs, cs, rfl, hbs⟩ := List.eq_append_cons_of_mem hfail
  rw [run_append] at hrun
  obtain ⟨m, hm, hrest⟩ := Option.bind_eq_some_iff.mp hrun
  obtain ⟨m', hm', hlast⟩ := run_cons_eq_some.mp hrest
  have hphase := phase_run hs hbs (fun c hc ↦ hcalls c (List.mem_append_left _ hc)) hm
  exact lost_run (lost_fail hphase hm')
    (fun c hc ↦ hcalls c (List.mem_append_right _ (List.mem_cons_of_mem _ hc))) hlast

variable {controller : InfoController UIImage} {session : Session} {now : Clock} {cloud : Cloud}

/-- Save starts its first phase when the controller has what is to be saved, and traps if not. -/
theorem pressSave_eq (hguest : session.isAnonymous = false)
    (h : controller.pressSave session now cloud id = some s) :
    (controller.imageData.isSome ∧ controller.landmarkName.isSome ∧ s.Phase id) ∨
    (¬(controller.imageData.isSome ∧ controller.landmarkName.isSome) ∧ s.cloud = cloud ∧
      s.trapped = true) := by
  rw [InfoController.pressSave, InfoController.saveHandler, if_neg (by rw [hguest]; decide)] at h
  rcases himage : controller.imageData with - | imageData <;>
    rcases hname : controller.landmarkName with - | name <;> rw [himage, hname] at h
  case some.some =>
    obtain ⟨cloud, hcloud, rfl⟩ := Option.map_eq_some_iff.mp h
    obtain ⟨-, rfl⟩ := Cloud.step_call hcloud
    refine Or.inl ⟨rfl, rfl, Or.inl ⟨⟨rfl, rfl, rfl, rfl⟩, session.currentUserID,
      uploadPath session.currentUserID (.record controller.selected.userSelectedText name) now,
      imageData, controller.selected.userSelectedText, name, ?_⟩⟩
    exact Function.update_self _ _ _
  all_goals
    obtain rfl := Option.some.inj h
    exact Or.inr ⟨by simp, rfl, rfl⟩

/-- **Save ends well**, when its call is over, exactly if the controller has a photo and a name, and
no step of the call has failed. -/
theorem save_ends_iff {es : List Action} (hguest : session.isAnonymous = false)
    (hfree : cloud.inFlight id = none)
    (hpress : controller.pressSave session now cloud id = some s)
    (hcalls : ∀ c, .call id c ∉ es) (hrun : run (SaveScreen.step id) s es = some t)
    (hend : t.cloud.inFlight id = none) :
    t.Ends ↔ controller.imageData.isSome ∧ controller.landmarkName.isSome ∧ .fail id ∉ es := by
  rcases pressSave_eq hguest hpress with ⟨himage, hname, hphase⟩ | ⟨hno, hcloud, htrapped⟩
  · by_cases hfail : .fail id ∈ es
    · exact iff_of_false (lost_of_fail hphase hfail hcalls hrun).ends fun h ↦ h.2.2 hfail
    · exact iff_of_true ((phase_run hphase hfail hcalls hrun).ends hend) ⟨himage, hname, hfail⟩
  · have hlost : s.Lost id :=
      ⟨by rw [hcloud]; exact hfree, fun he ↦ absurd (htrapped.symm.trans he.running) (by decide)⟩
    exact iff_of_false (lost_run hlost hcalls hrun).ends fun h ↦ hno ⟨h.1, h.2.1⟩

end Save

/-! ## Both buttons -/

/-- **Process and Save end on the screen** exactly under their two conditions.  That the record of
a save has been written is said of the database itself by `written_step`. -/
theorem process_and_save_end_iff :
    (∀ (kit : UIKit UIImage) (session : Session) (imageData : Data)
      (landmarks : Option (List VisionCloudLandmark)) (error : Option String) (cloud : Cloud),
      (PhotoController.process kit session imageData landmarks error cloud).Ends ↔
        Processable kit session imageData landmarks error cloud) ∧
    ∀ (controller : InfoController UIImage) (session : Session) (now : Clock) (cloud : Cloud)
      (id : ℕ) (s : SaveScreen) (es : List Action) (t : SaveScreen), session.isAnonymous = false →
      cloud.inFlight id = none → controller.pressSave session now cloud id = some s →
      (∀ c, .call id c ∉ es) → run (SaveScreen.step id) s es = some t →
      t.cloud.inFlight id = none →
      (t.Ends ↔
        controller.imageData.isSome ∧ controller.landmarkName.isSome ∧ .fail id ∉ es) :=
  ⟨fun _ _ _ _ _ _ ↦ process_ends_iff,
    fun _ _ _ _ _ _ _ _ hguest hfree hpress hcalls hrun hend ↦
      save_ends_iff hguest hfree hpress hcalls hrun hend⟩

/-- `alice` is signed in. -/
def signedInAlice : Session :=
  { Session.fresh with isSignedIn := true, storedUserID := some alice }

/-- A screen with a photo and the name of the landmark in it. -/
def statueController : InfoController Data :=
  { InfoController.ofDetection [] [0xFF, 0xD8] with landmarkName := some "Statue of Liberty" }

/-- `alice` has her quota and there is no landmark in her photo; and she saves another one. -/
theorem process_and_save_end_alice :
    (PhotoController.process plainKit signedInAlice [0xFF, 0xD8] (some []) none
      (.start .plain (setValue (userRef alice)
        (CapUser.setAuthorizedUser alice none).dictionary []))).Ends ∧
    ∃ s t, statueController.pressSave signedInAlice .epoch (.start .plain []) 0 = some s ∧
      run (SaveScreen.step 0) s [.deliver 0, .deliver 0, .deliver 0] = some t ∧ t.Ends := by
  refine ⟨(process_and_save_end_iff.1 plainKit signedInAlice _ _ _ _).mpr
    ⟨alice, 100, rfl, by decide, fun _ ↦ ⟨rfl, by simp⟩⟩, ?_⟩
  obtain ⟨s, hs⟩ : ∃ s, statueController.pressSave signedInAlice .epoch
    (.start .plain []) 0 = some s := ⟨_, rfl⟩
  obtain ⟨t, ht, hend⟩ : ∃ t, run (SaveScreen.step 0) s [.deliver 0, .deliver 0, .deliver 0]
      = some t ∧ t.cloud.inFlight 0 = none := by
    obtain rfl := Option.some.inj hs
    exact ⟨_, rfl, rfl⟩
  exact ⟨s, t, hs, ht, (process_and_save_end_iff.2 statueController signedInAlice _ _ 0 s _ t rfl
    rfl hs (by simp) ht hend).mpr ⟨rfl, rfl, by simp⟩⟩

/-- **Neither of them always comes to an end**: the quota may be missing, and the upload may
fail. -/
theorem not_process_and_save_end :
    (¬∀ (session : Session) (imageData : Data) (landmarks : Option (List VisionCloudLandmark))
      (error : Option String) (cloud : Cloud),
      (PhotoController.process plainKit session imageData landmarks error cloud).Ends) ∧
    ¬∀ (controller : InfoController Data) (session : Session) (now : Clock) (cloud : Cloud)
      (s : SaveScreen) (es : List Action) (t : SaveScreen), session.isAnonymous = false →
      controller.pressSave session now cloud 0 = some s → run (SaveScreen.step 0) s es = some t →
      t.cloud.inFlight 0 = none → t.Ends := by
  constructor
  · intro h
    exact Bool.false_ne_true (h signedInAlice [] none none (.start .plain [])).stopped.symm
  · intro h
    obtain ⟨s, hs⟩ : ∃ s, statueController.pressSave signedInAlice .epoch
      (.start .plain []) 0 = some s := ⟨_, rfl⟩
    obtain ⟨t, ht, hend, hspinning⟩ : ∃ t, run (SaveScreen.step 0) s [.fail 0] = some t ∧
        t.cloud.inFlight 0 = none ∧ t.spinning = true := by
      obtain rfl := Option.some.inj hs
      exact ⟨_, rfl, rfl, rfl⟩
    have hends := h statueController signedInAlice _ _ s _ t rfl hs ht hend
    exact absurd (hspinning.symm.trans hends.stopped) (by decide)

end LandCap
