import LandCap.Library.Runs
import LandCap.Login.Basic

/-!
# The camera, and the label that asks for it

`HomeController` sets its camera up when it is loaded, and a `CameraAccessHandler` then looks
whether the app may use it: if it may not, Home shows a label, and tapping on the label looks
again.  Before the user has been asked, the handler asks, and the label stays until the answer has
come back.

The answer comes to every handler that has asked, in any order, and to Homes that are long covered
by others.  Nevertheless a label is hidden only where access has been granted, and once the handlers
of a Home have had their answers it is shown only where access has been refused (`camera_label`).
This needs that access does not change while the app runs: the system ends an app whose access is
changed in the settings.

The button next to a hidden label takes pictures if the camera has been opened, which AVFoundation
can refuse for reasons of its own: `opens` says what it does, and `OpensUnlessRefused` that it does
so for want of access only.
-/

set_option autoImplicit false

namespace LandCap

open Runs

/-! ## Setting up the camera -/

inductive AVAuthorizationStatus where
  | notDetermined | restricted | denied | authorized
  deriving DecidableEq

inductive CameraPosition where
  | unspecified | back | front
  deriving DecidableEq

structure AVCaptureDevice where
  id : ℕ
  position : CameraPosition
  deriving DecidableEq

structure CaptureCamera where
  backCamera : Option AVCaptureDevice
  /-- `photoOutput` has been set. -/
  hasPhotoOutput : Bool
  deriving DecidableEq

/-- `setupDevice`: the last device at the back. -/
def CaptureCamera.setupDevice (camera : CaptureCamera) (devices : List AVCaptureDevice) :
    CaptureCamera :=
  devices.foldl (fun camera device ↦
    if device.position = .back then { camera with backCamera := some device } else camera) camera

/-- `setupInputOutput`; `opens` says whether `AVCaptureDeviceInput(device:)` does not throw. -/
def CaptureCamera.setupInputOutput (camera : CaptureCamera) (opens : AVCaptureDevice → Bool) :
    CaptureCamera :=
  match camera.backCamera with
  | none => camera
  | some backCamera => if opens backCamera then { camera with hasPhotoOutput := true } else camera

/-- `setupCamera`, as far as it decides whether pictures can be taken. -/
def CaptureCamera.setupCamera (devices : List AVCaptureDevice) (opens : AVCaptureDevice → Bool) :
    CaptureCamera :=
  (CaptureCamera.setupDevice { backCamera := none, hasPhotoOutput := false }
    devices).setupInputOutput opens

/-! ## The handlers -/

/-- A Home with its camera. -/
structure CameraHome where
  captureCamera : CaptureCamera
  isCameraAccessLabelHidden : Bool
  deriving DecidableEq

structure CameraAccess where
  devices : List AVCaptureDevice
  /-- Whether `AVCaptureDeviceInput(device:)` does not throw, by the access there is. -/
  opens : AVAuthorizationStatus → AVCaptureDevice → Bool
  status : AVAuthorizationStatus
  homes : ℕ → Option CameraHome
  /-- The Homes of the handlers that have asked and have not had their answer. -/
  requests : List ℕ
  alerts : List Alert

inductive CameraEvent where
  /-- `viewDidLoad` of the Home with this number. -/
  | viewDidLoad (home : ℕ)
  | handleCameraAccessTap (home : ℕ)
  /-- The user answers the system's question. -/
  | decide (granted : Bool)
  /-- The completion handler of `requestAccess` is called. -/
  | completion (home : ℕ)
  /-- The app is started again, with the access there is now. -/
  | relaunch (status : AVAuthorizationStatus)

namespace CameraAccess

/-- `isCameraAccessLabelHidden` of a Home is set. -/
def setHidden (s : CameraAccess) (home : ℕ) (hidden : Bool) : CameraAccess :=
  let view := (s.homes home).map fun view ↦ { view with isCameraAccessLabelHidden := hidden }
  { s with homes := Function.update s.homes home view }

/-- `checkCameraAccess`. -/
def checkCameraAccess (s : CameraAccess) (home : ℕ) : CameraAccess :=
  match s.status with
  | .denied =>
    { s.setHidden home false with
      alerts := s.alerts ++ [⟨.localized "Camera Access Title",
        .localized "Camera Access Body"⟩] }
  | .restricted => s.setHidden home false
  | .authorized => s.setHidden home true
  | .notDetermined => { s with requests := home :: s.requests }

/-- `viewDidLoad` of `HomeController`; the label of a new view is not hidden. -/
def load (s : CameraAccess) (home : ℕ) : CameraAccess :=
  let view : CameraHome :=
    { captureCamera := .setupCamera s.devices (s.opens s.status)
      isCameraAccessLabelHidden := false }
  checkCameraAccess { s with homes := Function.update s.homes home (some view) } home

def step (s : CameraAccess) : CameraEvent → Option CameraAccess
  | .viewDidLoad home => if (s.homes home).isNone then some (s.load home) else none
  | .handleCameraAccessTap home =>
    -- a hidden label cannot be tapped
    match s.homes home with
    | some view => if view.isCameraAccessLabelHidden then none else some (s.checkCameraAccess home)
    | none => none
  | .decide granted =>
    if s.status = .notDetermined then
      some { s with status := if granted then .authorized else .denied }
    else none
  | .completion home =>
    if s.status ≠ .notDetermined ∧ home ∈ s.requests then
      let success : Bool := s.status = .authorized
      some ({ s with requests := s.requests.erase home }.setHidden home success)
    else none
  | .relaunch status =>
    some { s with status := status, homes := fun _ ↦ none, requests := [] }

/-- The app is started for the first time. -/
def start (devices : List AVCaptureDevice) (opens : AVAuthorizationStatus → AVCaptureDevice → Bool)
    (status : AVAuthorizationStatus) : CameraAccess :=
  { devices := devices, opens := opens, status := status, homes := fun _ ↦ none, requests := [],
    alerts := [] }

end CameraAccess

/-! ## What a label says -/

/-- There is a camera at the back. -/
def HasBackCamera (devices : List AVCaptureDevice) : Prop := ∃ d ∈ devices, d.position = .back

/-- Access has been refused, by the user or for them. -/
def AVAuthorizationStatus.Refused (status : AVAuthorizationStatus) : Prop :=
  status = .restricted ∨ status = .denied

/-- A device opens unless access has been refused; one that opens before the user has been asked
gives pictures once they have agreed. -/
def OpensUnlessRefused (opens : AVAuthorizationStatus → AVCaptureDevice → Bool) : Prop :=
  ∀ status device, ¬ status.Refused → opens status device = true

/-- A label is hidden only where the camera may be used, and can be if there is one that opens; and
a label that waits for no answer is hidden wherever the camera may be used. -/
structure CameraAccess.Honest (s : CameraAccess) : Prop where
  hidden : ∀ {home view}, s.homes home = some view → view.isCameraAccessLabelHidden = true →
    s.status = .authorized ∧ (HasBackCamera s.devices → OpensUnlessRefused s.opens →
      view.captureCamera.hasPhotoOutput = true)
  shown : ∀ {home view}, s.homes home = some view → home ∉ s.requests →
    s.status = .authorized → view.isCameraAccessLabelHidden = true

/-- What keeps the labels honest, for every Home but one that has not been looked at yet: a label is
hidden only where access has been granted; one that waits for no answer is hidden there; and as long
as the user has not been asked, every Home waits. -/
structure CameraAccess.Checked (s : CameraAccess) (unchecked : Option ℕ) : Prop where
  hidden : ∀ {home view}, s.homes home = some view → some home ≠ unchecked →
    view.isCameraAccessLabelHidden = true → s.status = .authorized
  shown : ∀ {home view}, s.homes home = some view → some home ≠ unchecked → home ∉ s.requests →
    s.status = .authorized → view.isCameraAccessLabelHidden = true
  waiting : ∀ {home view}, s.homes home = some view → some home ≠ unchecked →
    s.status = .notDetermined → home ∈ s.requests
  /-- The camera has been set up unless access had been refused by then. -/
  output : ∀ {home view}, s.homes home = some view → ¬ s.status.Refused →
    HasBackCamera s.devices → OpensUnlessRefused s.opens → view.captureCamera.hasPhotoOutput = true

section Step

variable {s s' : CameraAccess} {home : ℕ} {unchecked : Option ℕ} {view : CameraHome}

theorem CameraAccess.Checked.honest (h : s.Checked none) : s.Honest where
  hidden hview hhidden := by
    have hstatus := h.hidden hview (Option.some_ne_none _) hhidden
    exact ⟨hstatus, h.output hview (by simp [hstatus, AVAuthorizationStatus.Refused])⟩
  shown hview := h.shown hview (Option.some_ne_none _)

theorem CameraAccess.Checked.but (h : s.Checked none) (unchecked : Option ℕ) :
    s.Checked unchecked where
  hidden hview _ := h.hidden hview (Option.some_ne_none _)
  shown hview _ := h.shown hview (Option.some_ne_none _)
  waiting hview _ := h.waiting hview (Option.some_ne_none _)
  output := h.output

/-- The device at the back is found. -/
theorem setupDevice_isSome (devices : List AVCaptureDevice) (camera : CaptureCamera)
    (hcamera : camera.backCamera.isSome = true ∨ HasBackCamera devices) :
    (camera.setupDevice devices).backCamera.isSome = true := by
  induction devices generalizing camera with
  | nil =>
    rcases hcamera with hcamera | ⟨d, hd, -⟩
    · exact hcamera
    · exact absurd hd List.not_mem_nil
  | cons device devices ih =>
    refine ih _ ?_
    beta_reduce
    by_cases hposition : device.position = .back
    · exact Or.inl (by rw [if_pos hposition]; rfl)
    · rw [if_neg hposition]
      refine hcamera.imp_right fun ⟨d, hd, hdback⟩ ↦ ?_
      rcases List.mem_cons.mp hd with rfl | hd
      · exact absurd hdback hposition
      · exact ⟨d, hd, hdback⟩

/-- The device at the back gives an output if it opens. -/
theorem setupCamera_output {devices : List AVCaptureDevice} {opens : AVCaptureDevice → Bool}
    (hback : HasBackCamera devices) (hopens : ∀ device, opens device = true) :
    (CaptureCamera.setupCamera devices opens).hasPhotoOutput = true := by
  obtain ⟨backCamera, hfound⟩ := Option.isSome_iff_exists.mp
    (setupDevice_isSome devices { backCamera := none, hasPhotoOutput := false } (Or.inr hback))
  rw [CaptureCamera.setupCamera, CaptureCamera.setupInputOutput, hfound]
  simp [hopens backCamera]

/-- A label is set to what the status says. -/
theorem checked_setHidden {hidden : Bool} (h : s.Checked (some home))
    (hstatus : s.status ≠ .notDetermined) (hhidden : hidden = true ↔ s.status = .authorized) :
    (s.setHidden home hidden).Checked none := by
  -- a view is the old one, but for the label that has been set
  have hview : ∀ {other view}, (s.setHidden home hidden).homes other = some view →
      ∃ old, s.homes other = some old ∧ view.captureCamera = old.captureCamera ∧
        (other = home ∧ view.isCameraAccessLabelHidden = hidden ∨
          some other ≠ some home ∧ view = old) := by
    intro other view hother
    rcases update_eq_some hother with ⟨rfl, hnew⟩ | ⟨hne, hold⟩
    · obtain ⟨old, hold, rfl⟩ := Option.map_eq_some_iff.mp hnew
      exact ⟨old, hold, rfl, Or.inl ⟨rfl, rfl⟩⟩
    · exact ⟨view, hold, rfl, Or.inr ⟨fun heq ↦ hne (Option.some.inj heq), rfl⟩⟩
  constructor
  · intro other view hother _ hlabel
    obtain ⟨old, hold, -, ⟨rfl, hset⟩ | ⟨hne, rfl⟩⟩ := hview hother
    · exact hhidden.mp (hset.symm.trans hlabel)
    · exact h.hidden hold hne hlabel
  · intro other view hother _ hnone hauthorized
    obtain ⟨old, hold, -, ⟨rfl, hset⟩ | ⟨hne, rfl⟩⟩ := hview hother
    · exact hset.trans (hhidden.mpr hauthorized)
    · exact h.shown hold hne hnone hauthorized
  · exact fun _ _ hnot ↦ absurd hnot hstatus
  · intro other view hother hrefused hback hopens
    obtain ⟨old, hold, hcamera, -⟩ := hview hother
    rw [hcamera]
    exact h.output hold hrefused hback hopens

/-- **After a handler has looked, every Home has been looked at.** -/
theorem checked_checkCameraAccess (h : s.Checked (some home))
    (hshown : ∀ {view}, s.homes home = some view → view.isCameraAccessLabelHidden = false) :
    (s.checkCameraAccess home).Checked none := by
  rw [CameraAccess.checkCameraAccess]
  split
  · rename_i hstatus
    have hset : (s.setHidden home false).Checked none :=
      checked_setHidden h (by simp [hstatus]) (by simp [hstatus])
    exact ⟨hset.hidden, hset.shown, hset.waiting, hset.output⟩
  · rename_i hstatus
    exact checked_setHidden h (by simp [hstatus]) (by simp [hstatus])
  · rename_i hstatus
    exact checked_setHidden h (by simp [hstatus]) (by simp [hstatus])
  · -- the handler asks, and the label stays as it is
    rename_i hstatus
    have hne : s.status ≠ .authorized := by simp [hstatus]
    constructor
    · intro other view hother _ hlabel
      rcases eq_or_ne other home with rfl | hother'
      · exact absurd (hlabel.symm.trans (hshown hother)) (by decide)
      · exact h.hidden hother (fun heq ↦ hother' (Option.some.inj heq)) hlabel
    · exact fun _ _ _ hauthorized ↦ absurd hauthorized hne
    · intro other view hother _ _
      rcases eq_or_ne other home with rfl | hother'
      · exact List.mem_cons_self
      · exact List.mem_cons_of_mem home
          (h.waiting hother (fun heq ↦ hother' (Option.some.inj heq)) hstatus)
    · exact h.output

/-- A new Home has its camera set up, and is looked at. -/
theorem checked_load (h : s.Checked none) (home : ℕ) : (s.load home).Checked none := by
  have hold : ∀ {other view new}, Function.update s.homes home (some new) other = some view →
      some other ≠ some home → s.homes other = some view := fun hother hne ↦
    ((update_eq_some hother).resolve_left fun heq ↦ hne (congrArg some heq.1)).2
  have hbut := h.but (some home)
  refine checked_checkCameraAccess ⟨fun hview hne ↦ hbut.hidden (hold hview hne) hne,
    fun hview hne ↦ hbut.shown (hold hview hne) hne,
    fun hview hne ↦ hbut.waiting (hold hview hne) hne, fun hview hrefused hback hopens ↦ ?_⟩
    fun hview ↦ ?_
  · rcases update_eq_some hview with ⟨rfl, hnew⟩ | ⟨-, hview⟩
    · obtain rfl := Option.some.inj hnew
      exact setupCamera_output hback fun device ↦ hopens s.status device hrefused
    · exact h.output hview hrefused hback hopens
  · rcases update_eq_some hview with ⟨-, hnew⟩ | ⟨hne, -⟩
    · obtain rfl := Option.some.inj hnew
      rfl
    · exact absurd rfl hne

/-- **The labels stay honest**, whatever happens. -/
theorem checked_step {e : CameraEvent} (h : s.Checked none) (hstep : s.step e = some s') :
    s'.Checked none := by
  cases e with
  | viewDidLoad home =>
    rw [CameraAccess.step] at hstep
    split at hstep
    · obtain rfl := Option.some.inj hstep
      exact checked_load h home
    · exact absurd hstep nofun
  | handleCameraAccessTap home =>
    rw [CameraAccess.step] at hstep
    split at hstep
    · rename_i view hview
      split at hstep
      · exact absurd hstep nofun
      · rename_i hlabel
        obtain rfl := Option.some.inj hstep
        refine checked_checkCameraAccess (h.but (some home)) fun hview' ↦ ?_
        obtain rfl := Option.some.inj (hview.symm.trans hview')
        exact Bool.eq_false_iff.mpr hlabel
    · exact absurd hstep nofun
  | decide granted =>
    rw [CameraAccess.step] at hstep
    split at hstep
    · rename_i hstatus
      obtain rfl := Option.some.inj hstep
      -- everybody still waits for this answer
      have hnone : ∀ {home view}, s.homes home = some view →
          view.isCameraAccessLabelHidden ≠ true := fun hview hlabel ↦
        absurd ((h.hidden hview (Option.some_ne_none _) hlabel).symm.trans hstatus) (by decide)
      constructor
      · exact fun hview _ hlabel ↦ absurd hlabel (hnone hview)
      · exact fun hview hne hrequests ↦ absurd (h.waiting hview hne hstatus) hrequests
      · intro home view _ _ hnot
        cases granted <;> exact absurd hnot (by simp)
      · exact fun hview _ ↦ h.output hview (by simp [hstatus, AVAuthorizationStatus.Refused])
    · exact absurd hstep nofun
  | completion home =>
    rw [CameraAccess.step] at hstep
    split at hstep
    · rename_i hc
      obtain rfl := Option.some.inj hstep
      refine checked_setHidden ?_ hc.1 (by simp)
      have hbut := h.but (some home)
      refine ⟨hbut.hidden, fun hview hne hrequests ↦ hbut.shown hview hne fun hmem ↦ ?_,
        fun _ _ hnot ↦ absurd hnot hc.1, hbut.output⟩
      exact hrequests ((List.mem_erase_of_ne fun heq ↦ hne (congrArg some heq)).mpr hmem)
    · exact absurd hstep nofun
  | relaunch status =>
    obtain rfl := Option.some.inj hstep
    constructor <;> exact fun hview ↦ absurd hview nofun

end Step

/-- **A label tells whether the camera may be used.**  In every run, however many Homes there are
and in whatever order the answers come: a label is hidden only where access has been granted and, if
there is a camera at the back and devices open unless access has been refused, the button takes
pictures; and on a Home whose handlers have had their answers it is shown only where access has not
been granted. -/
theorem camera_label {devices : List AVCaptureDevice}
    {opens : AVAuthorizationStatus → AVCaptureDevice → Bool} {status : AVAuthorizationStatus}
    {es : List CameraEvent} {t : CameraAccess}
    (h : run CameraAccess.step (.start devices opens status) es = some t) : t.Honest := by
  have hstart : (CameraAccess.start devices opens status).Checked none := by
    constructor <;> exact fun hview ↦ absurd hview nofun
  exact (run_preserves (fun _ _ _ hs hstep ↦ checked_step hs hstep) hstart h).honest

/-- Devices open unless access has been refused. -/
def opensUnlessRefused (status : AVAuthorizationStatus) (_ : AVCaptureDevice) : Bool :=
  status ≠ .restricted ∧ status ≠ .denied

/-- Two Homes ask, the user agrees, and the second has its answer first. -/
def askingTwice : List CameraEvent :=
  [.viewDidLoad 0, .viewDidLoad 1, .decide true, .completion 1, .completion 0]

theorem camera_label_askingTwice :
    OpensUnlessRefused opensUnlessRefused ∧
      ∃ t, run CameraAccess.step
        (.start [⟨0, .front⟩, ⟨1, .back⟩] opensUnlessRefused .notDetermined) askingTwice = some t ∧
          t.Honest := by
  refine ⟨fun status _ hrefused ↦ decide_eq_true (not_or.mp hrefused), ?_⟩
  obtain ⟨t, ht⟩ : ∃ t, run CameraAccess.step
      (.start [⟨0, .front⟩, ⟨1, .back⟩] opensUnlessRefused .notDetermined) askingTwice = some t :=
    ⟨_, rfl⟩
  exact ⟨t, ht, camera_label ht⟩

end LandCap
