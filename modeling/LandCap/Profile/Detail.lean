import Mathlib.Data.Rat.Floor
import LandCap.Login.Basic

/-!
# The detail screen

`DetailController` shows one saved image.  `viewDidLoad` only puts a block on the main queue; the
block asks for the photo and copies the text, and the photo is set when it has been downloaded, if
it ever is.  The buttons are there from the beginning, and two of their handlers rely on what has
been loaded: Download unwraps the photo, and what is drawn of it, and Share passes on whatever
`shareImage` and `shareText` hold.

`Tracks` says what the fields hold at each stage of loading.  With it, a step keeps the screen safe
exactly if it does not come too early (`safe_step_iff`), and so do the steps of a whole run
(`detail_safe_iff`).
-/

set_option autoImplicit false

namespace LandCap

open Runs

variable {UIImage : Type}

/-! ## The screen -/

/-- What the system draws, and how it counts the characters of a text. -/
structure UIGraphics (UIImage : Type) where
  size : UIImage → ℚ × ℚ
  count : String → ℕ
  /-- What is drawn of an image in a context of this size, if there is one. -/
  render : UIImage → ℚ × ℚ → Option UIImage
  /-- What `textToImage` draws in a context of this size, the text below the image, if there is one
  and the font is installed. -/
  drawText : String → UIImage → ℚ × ℚ → Option UIImage

/-- `resizeWithWidth`. -/
def resizeWithWidth (graphics : UIGraphics UIImage) (image : UIImage) (width : ℚ) :
    Option UIImage :=
  let (imageWidth, imageHeight) := graphics.size image
  graphics.render image (width, ⌈width / imageWidth * imageHeight⌉)

/-- `textToImage`; `none` when it unwraps a font or an image that is not there. -/
def textToImage (graphics : UIGraphics UIImage) (text : String) (image : UIImage) :
    Option UIImage :=
  let height : ℚ :=
    if graphics.count text > 600 ∧ graphics.count text < 1000 then 600
    else if graphics.count text > 1000 then 700
    else 300
  let (imageWidth, imageHeight) := graphics.size image
  graphics.drawText text image (imageWidth, imageHeight + height)

/-- `DetailController`, with the parts of its view that it sets. -/
structure DetailController (UIImage : Type) where
  userImage : UserImage
  shareImage : Option UIImage
  shareText : Option String
  /-- `navigationItem.title`. -/
  title : Option String
  /-- `detailView.imageView.image`. -/
  image : Option UIImage
  /-- `detailView.imageText.text`. -/
  imageText : String

/-- How far the photo has been loaded. -/
inductive Loading (UIImage : Type) where
  /-- The block that asks for it is on the main queue. -/
  | queued
  | downloading
  /-- The download has ended, with a photo or without one. -/
  | finished (image : Option UIImage)

/-- The photo, once it has been downloaded. -/
def Loading.image : Loading UIImage → Option UIImage
  | .queued | .downloading => none
  | .finished image => image

def Loading.isQueued : Loading UIImage → Bool
  | .queued => true
  | _ => false

def Loading.isDownloading : Loading UIImage → Bool
  | .downloading => true
  | _ => false

/-- What a handler does outside of the controller. -/
inductive DetailEffect (UIImage : Type) where
  /-- A `UIActivityViewController` with these items. -/
  | share (shareImage : Option UIImage) (shareText : Option String)
  /-- `UIImageWriteToSavedPhotosAlbum`. -/
  | save (image : UIImage)
  | alert (alert : Alert)
  | call (call : Call)
  | dismiss

structure DetailScreen (UIImage : Type) where
  controller : DetailController UIImage
  loading : Loading UIImage
  /-- How many alerts ask whether the image is to be deleted. -/
  asking : ℕ
  /-- The effects so far, the latest first. -/
  effects : List (DetailEffect UIImage)
  trapped : Bool

inductive DetailEvent (UIImage : Type) where
  /-- The main queue runs the block of `setDetails`. -/
  | runBlock
  /-- `sd_setImage` completes. -/
  | downloaded (image : Option UIImage)
  | share
  | download
  | trash
  /-- An alert is answered. -/
  | answer (delete : Bool)
  | cancel

namespace DetailScreen

/-- The text a new `DetailView` shows. -/
def loremIpsum : String :=
  "Lorem ipsum dolor sit amet, consectetur adipiscing elit, sed do eiusmod tempor incididunt ut " ++
  "labore et dolore magna aliqua. Ut enim ad minim veniam, quis nostrud exercitation ullamco " ++
  "laboris nisi ut aliquip ex ea commodo consequat. Duis aute irure dolor in reprehenderit in " ++
  "voluptate velit esse cillum dolore eu fugiat nulla pariatur. Excepteur sint occaecat " ++
  "cupidatat non proident, sunt in culpa qui officia deserunt mollit anim id est laborum."

/-- The screen after `viewDidLoad`. -/
def opened (userImage : UserImage) : DetailScreen UIImage where
  controller :=
    { userImage := userImage, shareImage := none, shareText := none, title := userImage.name
      image := none, imageText := loremIpsum }
  loading := .queued
  asking := 0
  effects := []
  trapped := false

/-- The block of `setDetails`, up to the completion of `sd_setImage`. -/
def runBlock (screen : DetailScreen UIImage) : DetailScreen UIImage :=
  match screen.controller.userImage.imageURL with
  | none => { screen with trapped := true }
  | some _ =>
    match screen.controller.userImage.text with
    | none => { screen with loading := .downloading }
    | some text =>
      { screen with
        loading := .downloading
        controller := { screen.controller with imageText := text, shareText := some text } }

variable (graphics : UIGraphics UIImage) (session : Session)

/-- The completion of `sd_setImage`. -/
def downloaded (screen : DetailScreen UIImage) (image : Option UIImage) : DetailScreen UIImage :=
  let screen := { screen with loading := .finished image }
  match image with
  | none => screen
  | some image =>
    { screen with
      controller := { screen.controller with
        image := some image, shareImage := resizeWithWidth graphics image 700 } }

/-- `shareHandler`. -/
def shareHandler (screen : DetailScreen UIImage) : DetailScreen UIImage :=
  { screen with
    effects := .share screen.controller.shareImage screen.controller.shareText :: screen.effects }

/-- `downloadHandler`. -/
def downloadHandler (screen : DetailScreen UIImage) : DetailScreen UIImage :=
  match screen.controller.image.bind (textToImage graphics screen.controller.imageText) with
  | none => { screen with trapped := true }
  | some image => { screen with effects := .save image :: screen.effects }

/-- `trashHandler`, which asks first. -/
def trashHandler (screen : DetailScreen UIImage) : DetailScreen UIImage :=
  { screen with
    asking := screen.asking + 1
    effects := .alert ⟨.localized "Delete Photo Title", .localized "Photo Delete Body"⟩ ::
      screen.effects }

/-- The alert of `trashHandler` is answered. -/
def answer (screen : DetailScreen UIImage) (delete : Bool) : DetailScreen UIImage :=
  let screen := { screen with asking := screen.asking - 1 }
  if delete then
    { screen with
      effects := .dismiss ::
        .call (.deleteUserImage session.currentUserID screen.controller.userImage) ::
          screen.effects }
  else screen

/-- `cancelHandler`. -/
def cancelHandler (screen : DetailScreen UIImage) : DetailScreen UIImage :=
  { screen with effects := .dismiss :: screen.effects }

/-- The main queue still has the block, the download is still running, or an alert is there to be
answered; the buttons can always be pressed. -/
def enabled (screen : DetailScreen UIImage) : DetailEvent UIImage → Bool
  | .runBlock => screen.loading.isQueued
  | .downloaded _ => screen.loading.isDownloading
  | .answer _ => 0 < screen.asking
  | .share | .download | .trash | .cancel => true

/-- What an event does. -/
def handle (screen : DetailScreen UIImage) : DetailEvent UIImage → DetailScreen UIImage
  | .runBlock => screen.runBlock
  | .downloaded image => screen.downloaded graphics image
  | .share => screen.shareHandler
  | .download => screen.downloadHandler graphics
  | .trash => screen.trashHandler
  | .answer delete => screen.answer session delete
  | .cancel => screen.cancelHandler

def step (screen : DetailScreen UIImage) (event : DetailEvent UIImage) :
    Option (DetailScreen UIImage) :=
  if screen.trapped = false ∧ screen.enabled event then some (screen.handle graphics session event)
  else none

/-! ## What is to be excluded -/

/-- Nothing has trapped, and whatever has been shared had a photo and a text. -/
structure Safe (screen : DetailScreen UIImage) : Prop where
  running : screen.trapped = false
  shared : ∀ image text, DetailEffect.share image text ∈ screen.effects →
    image.isSome = true ∧ text.isSome = true

/-- The step does not come too early: the block finds a link, Download is pressed when the photo
has been downloaded, and the text can be drawn below it, and Share when the photo has also been
resized, for an image with a text. -/
def InTime (screen : DetailScreen UIImage) : DetailEvent UIImage → Prop
  | .runBlock => screen.controller.userImage.imageURL.isSome
  | .download => ∃ image, screen.loading = .finished (some image) ∧
    (textToImage graphics screen.controller.imageText image).isSome
  | .share => screen.controller.userImage.text.isSome ∧ ∃ image,
    screen.loading = .finished (some image) ∧ (resizeWithWidth graphics image 700).isSome
  | _ => True

/-! ## What the fields hold -/

/-- The fields hold what has been loaded so far. -/
structure Tracks (screen : DetailScreen UIImage) : Prop where
  image : screen.controller.image = screen.loading.image
  shareImage : screen.controller.shareImage
    = screen.loading.image.bind fun image ↦ resizeWithWidth graphics image 700
  shareText : screen.controller.shareText
    = if screen.loading.isQueued then none else screen.controller.userImage.text

variable {graphics session} {screen next : DetailScreen UIImage} {event : DetailEvent UIImage}

theorem tracks_opened (userImage : UserImage) : Tracks graphics (opened userImage) :=
  ⟨rfl, rfl, rfl⟩

/-- What is shared is there exactly if the photo has been downloaded and resized, and the image has
a text. -/
theorem Tracks.share_iff (h : Tracks graphics screen) :
    screen.controller.shareImage.isSome = true ∧ screen.controller.shareText.isSome = true ↔
      InTime graphics screen .share := by
  rw [InTime, h.shareImage, h.shareText]
  cases screen.loading with
  | queued => simp [Loading.image]
  | downloading => simp [Loading.image]
  | finished image => cases image <;> simp [Loading.image, Loading.isQueued, and_comm]

theorem Tracks.download_iff (h : Tracks graphics screen) :
    (screen.controller.image.bind (textToImage graphics screen.controller.imageText)).isSome = true
      ↔ InTime graphics screen .download := by
  rw [InTime, h.image]
  cases screen.loading with
  | queued => simp [Loading.image]
  | downloading => simp [Loading.image]
  | finished image => cases image <;> simp [Loading.image]

theorem step_eq_some (h : step graphics session screen event = some next) :
    screen.trapped = false ∧ screen.enabled event = true ∧
      screen.handle graphics session event = next := by
  rw [step] at h
  split_ifs at h with henabled
  exact ⟨henabled.1, henabled.2, Option.some.inj h⟩

/-- The block copies the text, if there is a link. -/
theorem tracks_runBlock (h : Tracks graphics screen) (hqueued : screen.loading.isQueued = true) :
    Tracks graphics screen.runBlock := by
  obtain ⟨himage, hshareImage, hshareText⟩ := h
  have hloading : screen.loading = .queued := by
    cases hloading : screen.loading with
    | queued => rfl
    | downloading | finished => simp [hloading, Loading.isQueued] at hqueued
  rw [runBlock]
  split
  · exact ⟨himage, hshareImage, hshareText⟩
  · rw [hloading] at himage hshareImage hshareText
    split
    · rename_i htext
      exact ⟨himage, hshareImage, hshareText.trans htext.symm⟩
    · rename_i htext
      exact ⟨himage, hshareImage, htext.symm⟩

/-- A completed download sets the photo, if there is one. -/
theorem tracks_downloaded (h : Tracks graphics screen)
    (hloading : screen.loading.isDownloading = true) (image : Option UIImage) :
    Tracks graphics (screen.downloaded graphics image) := by
  obtain ⟨himage, hshareImage, hshareText⟩ := h
  have hloading : screen.loading = .downloading := by
    cases hloading' : screen.loading with
    | downloading => rfl
    | queued | finished => simp [hloading', Loading.isDownloading] at hloading
  rw [hloading] at himage hshareImage hshareText
  cases image with
  | none => exact ⟨himage, hshareImage, hshareText⟩
  | some image => exact ⟨rfl, rfl, hshareText⟩

/-- **The fields track the loading.** -/
theorem tracks_step (h : Tracks graphics screen)
    (hstep : step graphics session screen event = some next) : Tracks graphics next := by
  obtain ⟨-, henabled, rfl⟩ := step_eq_some hstep
  cases event with
  | runBlock => exact tracks_runBlock h henabled
  | downloaded image => exact tracks_downloaded h henabled image
  | download =>
    rw [handle, downloadHandler]
    split <;> exact ⟨h.image, h.shareImage, h.shareText⟩
  | answer delete => cases delete <;> exact ⟨h.image, h.shareImage, h.shareText⟩
  | share | trash | cancel => exact ⟨h.image, h.shareImage, h.shareText⟩

/-- An effect that shares nothing keeps the screen safe. -/
theorem Safe.of_effects (hs : screen.Safe) (hrunning : next.trapped = false)
    (heffects : ∀ image text, DetailEffect.share image text ∈ next.effects →
      DetailEffect.share image text ∈ screen.effects) : next.Safe :=
  ⟨hrunning, fun image text h ↦ hs.shared image text (heffects image text h)⟩

/-- The block traps exactly if there is no link. -/
theorem safe_runBlock_iff (hs : screen.Safe) :
    screen.runBlock.Safe ↔ InTime graphics screen .runBlock := by
  rw [InTime, runBlock]
  split
  · rename_i hlink
    exact iff_of_false (fun hsafe ↦ nomatch hsafe.running) (by simp [hlink])
  · rename_i hlink
    refine iff_of_true ?_ (by simp [hlink])
    split <;> exact hs.of_effects hs.running fun _ _ hshare ↦ hshare

theorem safe_shareHandler_iff (hs : screen.Safe) (h : Tracks graphics screen) :
    screen.shareHandler.Safe ↔ InTime graphics screen .share := by
  rw [← h.share_iff]
  refine ⟨fun hsafe ↦ hsafe.shared _ _ List.mem_cons_self, fun hthere ↦ ⟨hs.running, ?_⟩⟩
  intro image text hshare
  rcases List.mem_cons.mp hshare with heq | hshare
  · obtain ⟨rfl, rfl⟩ := DetailEffect.share.inj heq
    exact hthere
  · exact hs.shared image text hshare

theorem safe_downloadHandler_iff (hs : screen.Safe) (h : Tracks graphics screen) :
    (screen.downloadHandler graphics).Safe ↔ InTime graphics screen .download := by
  rw [← h.download_iff, downloadHandler]
  split
  · rename_i hnone
    exact iff_of_false (fun hsafe ↦ nomatch hsafe.running) (by simp [hnone])
  · rename_i hsome
    refine iff_of_true (hs.of_effects hs.running fun image text hshare ↦ ?_) (by simp [hsome])
    simpa using hshare

/-- **A safe screen stays safe exactly if the step is in time.** -/
theorem safe_step_iff (hs : screen.Safe) (h : Tracks graphics screen)
    (hstep : step graphics session screen event = some next) :
    next.Safe ↔ InTime graphics screen event := by
  obtain ⟨-, -, rfl⟩ := step_eq_some hstep
  cases event with
  | runBlock => exact safe_runBlock_iff hs
  | share => exact safe_shareHandler_iff hs h
  | download => exact safe_downloadHandler_iff hs h
  | downloaded image =>
    refine iff_of_true ?_ trivial
    cases image <;> exact hs.of_effects hs.running fun _ _ hshare ↦ hshare
  | answer delete =>
    refine iff_of_true (hs.of_effects ?_ fun image text hshare ↦ ?_) trivial
    · cases delete <;> exact hs.running
    · cases delete <;> simpa [handle, answer] using hshare
  | trash | cancel =>
    refine iff_of_true (hs.of_effects hs.running fun image text hshare ↦ ?_) trivial
    simpa [handle, trashHandler, cancelHandler] using hshare

/-- **The detail screen is safe exactly if no step comes too early.**  In a run, no unwrapping fails
and nothing is missing from what is shared exactly if the block finds a link, Download is pressed
only when the photo has been downloaded and can be drawn with the text, and Share only when it has
been resized too and the image has a text. -/
theorem detail_safe_iff {userImage : UserImage} {events : List (DetailEvent UIImage)}
    {screen : DetailScreen UIImage}
    (hrun : run (step graphics session) (opened userImage) events = some screen) :
    Throughout (step graphics session) Safe (opened userImage) events ↔
      Meets (step graphics session) (InTime graphics) (opened userImage) events := by
  have hopened : (opened userImage : DetailScreen UIImage).Safe :=
    ⟨rfl, fun _ _ hshare ↦ nomatch hshare⟩
  exact (meets_iff_throughout (I := Tracks graphics) (fun _ _ _ h _ _ hstep ↦ tracks_step h hstep)
    (fun _ _ _ h hs hstep ↦ safe_step_iff hs h hstep) (tracks_opened userImage) hopened hrun).symm

/-- A system that can draw everything, for the examples: an image is its size. -/
def plainGraphics : UIGraphics (ℚ × ℚ) where
  size image := image
  count := String.length
  render _ size := some size
  drawText _ _ size := some size

/-- An image that has a link, a text and a name. -/
def towerImage : UserImage where
  text := some "The tower is made of iron."
  name := some "Eiffel Tower"
  imageURL := some "https://example.org/tower.jpg"
  id := some "tower"

/-- Waiting for the photo, and then sharing and saving it. -/
def sharingThePhoto : List (DetailEvent (ℚ × ℚ)) :=
  [.runBlock, .downloaded (some (640, 480)), .share, .download]

theorem detail_safe_sharingThePhoto :
    Throughout (step plainGraphics .fresh) Safe (opened towerImage) sharingThePhoto := by
  obtain ⟨screen, hrun⟩ : ∃ screen,
      run (step plainGraphics .fresh) (opened towerImage) sharingThePhoto = some screen := ⟨_, rfl⟩
  refine (detail_safe_iff hrun).mpr ?_
  rw [sharingThePhoto, meets_cons rfl, meets_cons rfl, meets_cons rfl, meets_cons rfl]
  exact ⟨rfl, trivial, ⟨rfl, (640, 480), rfl, rfl⟩, ⟨(640, 480), rfl, rfl⟩, trivial⟩

/-- **The photo can be unwrapped before it is there**, for an ordinary record: Download is tapped as
soon as the screen is open. -/
theorem not_detail_safe : ¬∀ (key : String) (value : Database) (userImage : UserImage)
    (events : List (DetailEvent (ℚ × ℚ))) (screen : DetailScreen (ℚ × ℚ)),
    UserImage.ofSnapshot key value = some userImage →
    run (step plainGraphics .fresh) (opened userImage) events = some screen →
    Throughout (step plainGraphics .fresh) Safe (opened userImage) events := by
  intro h
  have hrecord : UserImage.ofSnapshot "tower" (imageRecord "https://example.org/tower.jpg"
      "The tower is made of iron." "Eiffel Tower") = some towerImage := by decide
  have hsafe := h _ _ _ [.download] _ hrecord rfl [.download] List.prefix_rfl _ rfl
  exact nomatch hsafe.running

end DetailScreen

end LandCap
