import LandCap.Info.Basic
import LandCap.Wiki.Sentences

/-!
# The detected landmark on the screen

The screen that `processHandler` opens is for the landmark that has been detected: it should show
the landmark's name and the photo, offer the sentences of the article with that name
(`Shows`), and save the photo under that name (`Saves`).

`setupModel` prepares the screen for this (`setupModel_detects`), but `viewDidLoad` calls `testData`
in its place.  `testData` shows one text and asks for the article of another one, so the two cannot
both be the name, and it never sets `landmarkName`, so no sequence of taps leads to a screen that
can be saved.
-/

set_option autoImplicit false

namespace LandCap

open InfoController Runs

variable {UIImage : Type} (kit : UIKit UIImage) {seg : Segmentation} (tagger : Tagger seg)

/-! ## What is to be shown and saved -/

/-- The screen `processHandler` opens for these landmarks. -/
def opened (imageData : Data) (landmarks : List VisionCloudLandmark) :
    Option (InfoController UIImage) :=
  (PhotoController.detected imageData (some landmarks) none).presented.bind (viewDidLoad kit)

/-- The screen has asked for the article with this name, and once the answer is there, it shows the
name, the photo, and the sentences of the article. -/
def Shows (imageData : Data) (name : String) (response : Response)
    (controller : InfoController UIImage) : Prop :=
  controller.asked = some (WikiModel.ofTitle name) ∧
    ∃ shown all photo, controller.receive kit seg tagger response = some shown ∧
      (WikiModel.ofTitle name).getWikiContent seg tagger response = .contents all ∧
      kit.ofData imageData = some photo ∧
      shown.infoView.title = some name ∧ shown.infoView.image = kit.createThumbnail photo ∧
      shown.infoModel.map InfoModel.wikiModel = some all

/-- Once the answer is there and these cells have been tapped, a press of Save adds the photo under
this name, with some of the sentences of the article. -/
def Saves (imageData : Data) (name : String) (response : Response) (session : Session)
    (now : Clock) (rows : List ℕ) (controller : InfoController UIImage) : Prop :=
  ∃ shown all chosen tapped, controller.receive kit seg tagger response = some shown ∧
    (WikiModel.ofTitle name).getWikiContent seg tagger response = .contents all ∧
    run tap shown rows = some tapped ∧ chosen ⊆ all ∧
    tapped.saveHandler session now =
      .call (.addNew session.currentUserID imageData (joinedText chosen) name now)

/-- The screen shows the landmark that has been detected. -/
def ShowsDetected (imageData : Data) (landmarks : List VisionCloudLandmark)
    (response : Response) : Prop :=
  ∃ name controller, landmarks.head?.bind VisionCloudLandmark.landmark = some name ∧
    opened kit imageData landmarks = some controller ∧
    Shows kit tagger imageData name response controller

/-- The screen saves the landmark that has been detected. -/
def SavesDetected (imageData : Data) (landmarks : List VisionCloudLandmark) (response : Response)
    (session : Session) (now : Clock) (rows : List ℕ) : Prop :=
  ∃ name controller, landmarks.head?.bind VisionCloudLandmark.landmark = some name ∧
    opened kit imageData landmarks = some controller ∧
    Saves kit tagger imageData name response session now rows controller

/-! ## The steps of the screen -/

section Steps

variable {kit tagger} {controller shown tapped : InfoController UIImage}

theorem ofModel_eq_some {info : InfoModel UIImage} {view : InfoView UIImage}
    (h : InfoView.ofModel kit info = some view) : view.title = info.title := by
  rw [InfoView.ofModel] at h
  simp only [Option.bind_eq_bind, Option.bind_eq_some_iff] at h
  obtain ⟨image, -, thumbnail, -, confidence, -, h⟩ := h
  rw [← Option.some.inj h]

/-- Showing the sentences changes the model and the view only. -/
theorem showContents_eq_some {all : List WikiContentModel}
    (h : controller.showContents kit all = some shown) :
    ∃ infoModel infoView, controller.infoModel = some infoModel ∧
      InfoView.ofModel kit { infoModel with wikiModel := all } = some infoView ∧
      shown = { controller with
        infoModel := some { infoModel with wikiModel := all }, infoView := infoView } := by
  rw [showContents] at h
  simp only [Option.bind_eq_bind, Option.bind_eq_some_iff] at h
  obtain ⟨infoModel, hmodel, infoView, hview, h⟩ := h
  exact ⟨infoModel, infoView, hmodel, hview, (Option.some.inj h).symm⟩

/-- What the answer of Wikipedia does to the screen. -/
theorem receive_eq_some {response : Response}
    (h : controller.receive kit seg tagger response = some shown) :
    shown = controller ∨ ∃ wikiModel all, controller.asked = some wikiModel ∧
      wikiModel.getWikiContent seg tagger response = .contents all ∧
      controller.showContents kit all = some shown := by
  rw [receive] at h
  simp only [Option.bind_eq_bind, Option.bind_eq_some_iff] at h
  obtain ⟨wikiModel, hasked, h⟩ := h
  cases hcontent : wikiModel.getWikiContent seg tagger response with
  | silence =>
    rw [hcontent] at h
    exact Or.inl (Option.some.inj h).symm
  | trap =>
    rw [hcontent] at h
    exact absurd h (by simp)
  | contents all =>
    rw [hcontent] at h
    exact Or.inr ⟨wikiModel, all, hasked, hcontent, h⟩

theorem receive_frame {response : Response}
    (h : controller.receive kit seg tagger response = some shown) :
    shown.landmarkName = controller.landmarkName ∧ shown.imageData = controller.imageData ∧
      shown.selected = controller.selected := by
  rcases receive_eq_some h with rfl | ⟨wikiModel, all, -, -, hshow⟩
  · exact ⟨rfl, rfl, rfl⟩
  · obtain ⟨infoModel, infoView, -, -, rfl⟩ := showContents_eq_some hshow
    exact ⟨rfl, rfl, rfl⟩

/-- What a tap can do: nothing, when it is refused, or select the sentence of the row, or take it
back. -/
theorem tap_eq_some {row : ℕ} (h : controller.tap row = some tapped) :
    ∃ infoModel content, controller.infoModel = some infoModel ∧
      infoModel.wikiModel[row]? = some content ∧
      (tapped = controller ∨
        tapped = { controller with selected := controller.selected.insert row content } ∨
        tapped = { controller with selected := controller.selected.remove row }) := by
  obtain ⟨⟨next, alert⟩, hnext, rfl⟩ := Option.map_eq_some_iff.mp h
  obtain ⟨infoModel, content, hmodel, hrow, htap⟩ := handleCellTap_eq_some hnext
  refine ⟨infoModel, content, hmodel, hrow, ?_⟩
  rcases htap with ⟨-, -, hnext, -⟩ | ⟨-, -, hnext, -⟩ | ⟨-, hnext, -⟩
  · exact Or.inr (Or.inl hnext)
  · exact Or.inl hnext
  · exact Or.inr (Or.inr hnext)

/-- The taps have changed nothing but the selection, and what is selected are sentences that are
shown. -/
structure AfterTaps (shown tapped : InfoController UIImage) : Prop where
  landmarkName : tapped.landmarkName = shown.landmarkName
  imageData : tapped.imageData = shown.imageData
  infoModel : tapped.infoModel = shown.infoModel
  selected : ∀ entry ∈ tapped.selected,
    ∃ infoModel, shown.infoModel = some infoModel ∧ entry.2 ∈ infoModel.wikiModel

theorem AfterTaps.tap {next : InfoController UIImage} {row : ℕ} (h : AfterTaps shown tapped)
    (htap : tapped.tap row = some next) : AfterTaps shown next := by
  obtain ⟨infoModel, content, hmodel, hrow, rfl | rfl | rfl⟩ := tap_eq_some htap
  · exact h
  · refine ⟨h.landmarkName, h.imageData, h.infoModel, fun entry hentry ↦ ?_⟩
    rcases List.mem_cons.mp hentry with rfl | hentry
    · exact ⟨infoModel, h.infoModel ▸ hmodel, List.mem_of_getElem? hrow⟩
    · exact h.selected entry (List.mem_of_mem_filter hentry)
  · exact ⟨h.landmarkName, h.imageData, h.infoModel,
      fun entry hentry ↦ h.selected entry (List.mem_of_mem_filter hentry)⟩

/-- **Any sequence of taps.** -/
theorem afterTaps_run {rows : List ℕ} (hnone : shown.selected = [])
    (h : run InfoController.tap shown rows = some tapped) : AfterTaps shown tapped := by
  have hstart : AfterTaps shown shown := ⟨rfl, rfl, rfl, by simp [hnone]⟩
  exact run_preserves (fun _ _ _ hi htap ↦ AfterTaps.tap hi htap) hstart h

/-- A tap on a cell that is there goes through. -/
theorem exists_tap {infoModel : InfoModel UIImage} {row : ℕ}
    (hmodel : controller.infoModel = some infoModel) (hrow : row < infoModel.wikiModel.length) :
    ∃ tapped, controller.tap row = some tapped ∧ tapped.infoModel = some infoModel := by
  rw [InfoController.tap, handleCellTap]
  simp only [hmodel, List.getElem?_eq_getElem hrow, Option.bind_eq_bind, Option.bind_some]
  split_ifs
  · exact ⟨_, rfl, rfl⟩
  · exact ⟨_, rfl, hmodel⟩
  · exact ⟨_, rfl, rfl⟩

theorem exists_run_tap {infoModel : InfoModel UIImage} {rows : List ℕ}
    (hmodel : controller.infoModel = some infoModel)
    (hrows : ∀ row ∈ rows, row < infoModel.wikiModel.length) :
    ∃ tapped, run InfoController.tap controller rows = some tapped := by
  induction rows generalizing controller with
  | nil => exact ⟨controller, rfl⟩
  | cons row rows ih =>
    obtain ⟨next, htap, hnext⟩ := exists_tap hmodel (hrows row List.mem_cons_self)
    obtain ⟨tapped, hrun⟩ := ih hnext fun r hr ↦ hrows r (List.mem_cons_of_mem row hr)
    exact ⟨tapped, run_cons_eq_some.mpr ⟨next, htap, hrun⟩⟩

/-- Without a name there is nothing to save under. -/
theorem saveHandler_ne_call (h : controller.landmarkName = none) (session : Session) (now : Clock)
    (call : Call) : controller.saveHandler session now ≠ .call call := by
  rw [saveHandler, h]
  split_ifs
  · exact fun hs ↦ Saving.noConfusion hs
  · cases controller.imageData with
    | none => exact fun hs ↦ Saving.noConfusion hs
    | some imageData => exact fun hs ↦ Saving.noConfusion hs

/-- With a name, Save adds the photo with sentences that are shown. -/
theorem saveHandler_afterTaps {infoModel : InfoModel UIImage} {imageData : Data} {name : String}
    {session : Session} (h : AfterTaps shown tapped) (hmodel : shown.infoModel = some infoModel)
    (hdata : shown.imageData = some imageData) (hname : shown.landmarkName = some name)
    (hsession : session.isAnonymous = false) (now : Clock) :
    ∃ chosen, chosen ⊆ infoModel.wikiModel ∧ tapped.saveHandler session now =
      .call (.addNew session.currentUserID imageData (joinedText chosen) name now) := by
  refine ⟨(tapped.selected.insertionSort fun x y ↦ x.1 ≤ y.1).map Prod.snd, ?_, ?_⟩
  · intro content hcontent
    obtain ⟨entry, hentry, rfl⟩ := List.mem_map.mp hcontent
    obtain ⟨info, hinfo, hmem⟩ := h.selected entry ((List.mem_insertionSort _).mp hentry)
    obtain rfl := Option.some.inj (hmodel.symm.trans hinfo)
    exact hmem
  · rw [saveHandler, hsession, if_neg Bool.false_ne_true, h.imageData, h.landmarkName, hdata, hname,
      Selection.userSelectedText]

end Steps

/-! ## The screen that was meant -/

section Prepared

variable {kit tagger} {imageData : Data} {first : VisionCloudLandmark}
  {rest : List VisionCloudLandmark} {response : Response} {name : String} {confidence : Float}
  {photo : UIImage} {all : List WikiContentModel}

/-- The screen `setupModel` prepares. -/
def prepared (kit : UIKit UIImage) (imageData : Data) (landmarks : List VisionCloudLandmark)
    (name : String) (confidence : Float) : InfoController UIImage :=
  { InfoController.ofDetection landmarks imageData with
    infoModel := some (.ofImage (kit.ofData imageData) (some name)
      (some (confidence * 100.0).round))
    landmarkName := some name
    asked := some (WikiModel.ofTitle name) }

theorem setupModel_eq (hname : first.landmark = some name)
    (hconfidence : first.confidence = some confidence) :
    (InfoController.ofDetection (first :: rest) imageData).setupModel kit
      = some (prepared kit imageData (first :: rest) name confidence) := by
  rw [setupModel, InfoController.ofDetection]
  simp only [Option.bind_eq_bind, Option.bind_some, List.head?_cons, hname, hconfidence]
  rfl

theorem receive_prepared (hphoto : kit.ofData imageData = some photo)
    (hthumbnail : (kit.createThumbnail photo).isSome = true)
    (hcontent : (WikiModel.ofTitle name).getWikiContent seg tagger response = .contents all)
    (landmarks : List VisionCloudLandmark) (confidence : Float) :
    ∃ shown infoModel, (prepared kit imageData landmarks name confidence).receive kit seg tagger
        response = some shown ∧ shown.infoView.title = some name ∧
      shown.infoView.image = kit.createThumbnail photo ∧ shown.infoModel = some infoModel ∧
      infoModel.wikiModel = all := by
  obtain ⟨thumbnail, hthumbnail⟩ := Option.isSome_iff_exists.mp hthumbnail
  rw [receive, prepared]
  simp only [Option.bind_eq_bind, Option.bind_some, hcontent, showContents, InfoModel.ofImage,
    InfoView.ofModel, hphoto, hthumbnail]
  exact ⟨_, _, rfl, rfl, rfl, rfl, rfl⟩

/-- **The screen `setupModel` prepares is right**: it shows the landmark, and saves it after any
taps on its cells. -/
theorem setupModel_detects (hname : first.landmark = some name)
    (hconfidence : first.confidence = some confidence) (hphoto : kit.ofData imageData = some photo)
    (hthumbnail : (kit.createThumbnail photo).isSome = true)
    (hcontent : (WikiModel.ofTitle name).getWikiContent seg tagger response = .contents all) :
    ∃ controller,
      (InfoController.ofDetection (first :: rest) imageData).setupModel kit = some controller ∧
      Shows kit tagger imageData name response controller ∧
      ∀ (session : Session) (now : Clock) (rows : List ℕ), session.isAnonymous = false →
        (∀ row ∈ rows, row < all.length) →
        Saves kit tagger imageData name response session now rows controller := by
  obtain ⟨shown, infoModel, hreceive, htitle, himage, hinfo, rfl⟩ :=
    receive_prepared hphoto hthumbnail hcontent (first :: rest) confidence
  refine ⟨_, setupModel_eq hname hconfidence, ?_, ?_⟩
  · refine ⟨rfl, shown, infoModel.wikiModel, photo, hreceive, hcontent, hphoto, htitle, himage, ?_⟩
    rw [hinfo, Option.map_some]
  · intro session now rows hsession hrows
    obtain ⟨hkept, hdata, hselected⟩ := receive_frame hreceive
    obtain ⟨tapped, hrun⟩ := exists_run_tap hinfo hrows
    obtain ⟨chosen, hchosen, hsave⟩ :=
      saveHandler_afterTaps (afterTaps_run hselected hrun) hinfo hdata hkept hsession now
    exact ⟨shown, infoModel.wikiModel, chosen, tapped, hreceive, hcontent, hrun, hchosen, hsave⟩

end Prepared

/-! ## The screen that is opened -/

section Opened

variable {kit tagger} {imageData : Data} {landmarks : List VisionCloudLandmark}
  {response : Response} {name : String} {controller : InfoController UIImage}

theorem opened_eq_some (h : opened kit imageData landmarks = some controller) :
    ∃ image, controller = { InfoController.ofDetection landmarks imageData with
      infoModel := some (.ofImage (some image) (some "Statue of Liberty Statue Liberty Statue")
        (some 20))
      asked := some (WikiModel.ofTitle "Staten Island Ferry") } := by
  obtain ⟨screen, hscreen, hload⟩ := Option.bind_eq_some_iff.mp h
  obtain ⟨image, -, hload⟩ := Option.bind_eq_some_iff.mp hload
  obtain rfl := Option.some.inj hload
  rw [PhotoController.detected] at hscreen
  split_ifs at hscreen
  obtain rfl := Option.some.inj hscreen
  exact ⟨image, rfl⟩

/-- The name that is shown is not the name of the article. -/
theorem not_shows_opened (h : opened kit imageData landmarks = some controller) :
    ¬Shows kit tagger imageData name response controller := by
  rintro ⟨hasked, shown, all, photo, hreceive, hcontent, -, htitle, -⟩
  obtain ⟨image, rfl⟩ := opened_eq_some h
  have hmodel : WikiModel.ofTitle name = WikiModel.ofTitle "Staten Island Ferry" :=
    (Option.some.inj hasked).symm
  have hname : name = "Statue of Liberty Statue Liberty Statue" := by
    rcases receive_eq_some hreceive with rfl | ⟨wikiModel, all, -, -, hshow⟩
    · exact absurd htitle (by simp [InfoController.ofDetection])
    · obtain ⟨infoModel, infoView, hinfo, hview, rfl⟩ := showContents_eq_some hshow
      obtain rfl := Option.some.inj hinfo
      have htext := ofModel_eq_some hview
      exact Option.some.inj (htitle.symm.trans htext)
  have hurl := congrArg WikiModel.baseUrl hmodel
  rw [hname] at hurl
  exact absurd hurl (by decide +kernel)

/-- No sequence of taps leads to a screen with a name to save under. -/
theorem not_saves_opened {session : Session} {now : Clock} {rows : List ℕ}
    (h : opened kit imageData landmarks = some controller) :
    ¬Saves kit tagger imageData name response session now rows controller := by
  rintro ⟨shown, all, chosen, tapped, hreceive, -, hrun, -, hsave⟩
  obtain ⟨image, rfl⟩ := opened_eq_some h
  obtain ⟨hname, -, hselected⟩ := receive_frame hreceive
  have hnone : tapped.landmarkName = none :=
    (afterTaps_run hselected hrun).landmarkName.trans hname
  exact saveHandler_ne_call hnone session now _ hsave

/-- **The detected landmark is never shown and never saved**, whatever has been detected, whatever
Wikipedia answers, and whoever presses Save after whatever taps. -/
theorem not_detected (kit : UIKit UIImage) (tagger : Tagger seg) (imageData : Data)
    (landmarks : List VisionCloudLandmark) (response : Response) :
    ¬ShowsDetected kit tagger imageData landmarks response ∧
      ∀ (session : Session) (now : Clock) (rows : List ℕ),
        ¬SavesDetected kit tagger imageData landmarks response session now rows := by
  constructor
  · rintro ⟨name, controller, -, hopened, hshows⟩
    exact not_shows_opened hopened hshows
  · rintro session now rows ⟨name, controller, -, hopened, hsaves⟩
    exact not_saves_opened hopened hsaves

end Opened

/-- A system on which every file is an image, and its own thumbnail. -/
def plainKit : UIKit Data where
  ofData := some
  named name := if name = "statue.png" then some [0x89, 0x50, 0x4E, 0x47] else none
  createThumbnail := some

/-- A photo of the Eiffel Tower opens a screen that is about a statue. -/
theorem not_forall_detected : ¬∀ (UIImage : Type) (kit : UIKit UIImage) (seg : Segmentation)
    (tagger : Tagger seg) (imageData : Data) (first : VisionCloudLandmark)
    (rest : List VisionCloudLandmark) (response : Response) (session : Session) (now : Clock)
    (rows : List ℕ), first.landmark.isSome = true → first.confidence.isSome = true →
    session.isAnonymous = false →
    ShowsDetected kit tagger imageData (first :: rest) response ∧
      SavesDetected kit tagger imageData (first :: rest) response session now rows := by
  intro h
  have hdetected := h Data plainKit .scalars sampleTagger [0xFF, 0xD8]
    ⟨some "Eiffel Tower", some 0.9⟩ [] (answer [("extract", .string "It floats.")])
    { Session.fresh with isSignedIn := true, storedUserID := some alice } .epoch []
    rfl rfl rfl
  obtain ⟨name, controller, -, hopened, hshows⟩ := hdetected.1
  exact not_shows_opened hopened hshows

end LandCap
