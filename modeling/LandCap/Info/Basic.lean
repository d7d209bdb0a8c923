import Mathlib.Data.List.Sort
import LandCap.Login.Basic
import LandCap.Wiki.Basic

/-!
# From a photo to the article: `PhotoController` and `InfoController`

`processHandler` asks for the quota, then for the landmarks in the photo, and presents an
`InfoController`, which asks Wikipedia for an article, lets the user select up to five of its
sentences, and saves the photo with them.

The controllers have fields that are set on some paths only.  They are `Option`s here, and a handler
that reads one that is not set returns `none` (or says `trap`), as does one that reads past the end
of an array.  What the system makes of bytes and file names is a `UIKit`.
-/

set_option autoImplicit false

namespace LandCap

/-- What the system makes of image files. -/
structure UIKit (UIImage : Type) where
  /-- `UIImage(data:)`. -/
  ofData : Data → Option UIImage
  /-- `UIImage(named:)`. -/
  named : String → Option UIImage
  /-- `createThumbnail(from:)`, which unwraps what the system returns. -/
  createThumbnail : UIImage → Option UIImage

/-- `VisionCloudLandmark`. -/
structure VisionCloudLandmark where
  landmark : Option String
  confidence : Option Float

/-- `InfoModel`. -/
structure InfoModel (UIImage : Type) where
  title : Option String
  confidence : Option Float
  image : Option UIImage
  wikiModel : List WikiContentModel

/-- `InfoModel.init`. -/
def InfoModel.ofImage {UIImage : Type} (image : Option UIImage) (title : Option String)
    (confidence : Option Float) : InfoModel UIImage :=
  { title := title, confidence := confidence, image := image, wikiModel := [] }

/-- What `InfoView` shows above the sentences; the confidence is the number in its label. -/
structure InfoView (UIImage : Type) where
  image : Option UIImage
  title : Option String
  confidence : Option Float

/-- `InfoView.infoModel.didSet`, for a model. -/
def InfoView.ofModel {UIImage : Type} (kit : UIKit UIImage) (info : InfoModel UIImage) :
    Option (InfoView UIImage) := do
  let image ← kit.createThumbnail (← info.image)
  let confidence ← info.confidence
  return { image := some image, title := info.title, confidence := some confidence }

/-! ## The selected sentences -/

/-- The dictionary `selected`: no key occurs twice. -/
abbrev Selection := List (ℕ × WikiContentModel)

/-- `selected[row] = nil`. -/
def Selection.remove (selected : Selection) (row : ℕ) : Selection :=
  selected.filter fun entry ↦ entry.1 ≠ row

/-- `selected[row] = content`. -/
def Selection.insert (selected : Selection) (row : ℕ) (content : WikiContentModel) : Selection :=
  (row, content) :: selected.remove row

/-- What the loop of `userSelectedText` makes of a list of sentences. -/
def joinedText (contents : List WikiContentModel) : String :=
  contents.foldl (fun text value ↦ text ++ value.text ++ " ") ""

/-- `userSelectedText`. -/
def Selection.userSelectedText (selected : Selection) : String :=
  joinedText ((selected.insertionSort fun x y ↦ x.1 ≤ y.1).map Prod.snd)

/-! ## `InfoController` -/

structure InfoController (UIImage : Type) where
  landmarks : Option (List VisionCloudLandmark)
  imageData : Option Data
  landmarkName : Option String
  infoModel : Option (InfoModel UIImage)
  selected : Selection
  infoView : InfoView UIImage
  /-- The article that has been asked for. -/
  asked : Option WikiModel

namespace InfoController

variable {UIImage : Type} (kit : UIKit UIImage)

/-- An `InfoController()` with the fields that `processHandler` sets. -/
def ofDetection (landmarks : List VisionCloudLandmark) (imageData : Data) :
    InfoController UIImage where
  landmarks := some landmarks
  imageData := some imageData
  landmarkName := none
  infoModel := none
  selected := []
  infoView := { image := none, title := none, confidence := none }
  asked := none

/-- `setupModel`, up to the answer of Wikipedia. -/
def setupModel (controller : InfoController UIImage) : Option (InfoController UIImage) := do
  let landmarks ← controller.landmarks
  match landmarks.head?.bind VisionCloudLandmark.landmark,
    landmarks.head?.bind VisionCloudLandmark.confidence with
  | some landmark, some confidence =>
    let imageData ← controller.imageData
    return { controller with
      infoModel := some (.ofImage (kit.ofData imageData) (some landmark)
        (some (confidence * 100.0).round))
      landmarkName := some landmark
      asked := some (WikiModel.ofTitle landmark) }
  | _, _ => return controller

/-- `testData`, up to the answer of Wikipedia. -/
def testData (controller : InfoController UIImage) : Option (InfoController UIImage) := do
  let image ← kit.named "statue.png"
  return { controller with
    infoModel := some (.ofImage (some image) (some "Statue of Liberty Statue Liberty Statue")
      (some 20))
    asked := some (WikiModel.ofTitle "Staten Island Ferry") }

/-- `viewDidLoad`. -/
def viewDidLoad (controller : InfoController UIImage) : Option (InfoController UIImage) :=
  controller.testData kit

/-- The block that `setupModel` and `testData` put on the main queue. -/
def showContents (controller : InfoController UIImage) (wikiContents : List WikiContentModel) :
    Option (InfoController UIImage) := do
  let infoModel ← controller.infoModel
  let infoModel := { infoModel with wikiModel := wikiContents }
  let infoView ← InfoView.ofModel kit infoModel
  return { controller with infoModel := some infoModel, infoView := infoView }

/-- The answer of Wikipedia arrives, and is shown. -/
def receive (seg : Segmentation) (tagger : Tagger seg) (controller : InfoController UIImage)
    (response : Response) : Option (InfoController UIImage) := do
  match (← controller.asked).getWikiContent seg tagger response with
  | .silence => return controller
  | .trap => none
  | .contents all => controller.showContents kit all

/-- `handleCellTap`, with the alert it shows, if any. -/
def handleCellTap (controller : InfoController UIImage) (row : ℕ) :
    Option (InfoController UIImage × Option Alert) := do
  let wikiModel ← (← controller.infoModel).wikiModel[row]?
  let count := controller.selected.length
  if (controller.selected.lookup row).isNone then
    if count < 5 then
      return ({ controller with selected := controller.selected.insert row wikiModel }, none)
    else
      return (controller, some ⟨.localized "Wiki Alert Title", .localized "Wiki Alert Message"⟩)
  else return ({ controller with selected := controller.selected.remove row }, none)

/-- **What `handleCellTap` does**: it selects the sentence of the row, or refuses to, when five are
selected already, or takes it back. -/
theorem handleCellTap_eq_some {controller next : InfoController UIImage} {row : ℕ}
    {alert : Option Alert} (h : controller.handleCellTap row = some (next, alert)) :
    ∃ infoModel content, controller.infoModel = some infoModel ∧
      infoModel.wikiModel[row]? = some content ∧
      ((controller.selected.lookup row = none ∧ controller.selected.length < 5 ∧
          next = { controller with selected := controller.selected.insert row content } ∧
          alert = none) ∨
        (controller.selected.lookup row = none ∧ ¬controller.selected.length < 5 ∧
          next = controller ∧ alert.isSome) ∨
        ((controller.selected.lookup row).isSome ∧
          next = { controller with selected := controller.selected.remove row } ∧
          alert = none)) := by
  rw [handleCellTap] at h
  simp only [Option.bind_eq_bind, Option.bind_eq_some_iff] at h
  obtain ⟨infoModel, hmodel, content, hrow, h⟩ := h
  refine ⟨infoModel, content, hmodel, hrow, ?_⟩
  split_ifs at h with hselected hcount
  · obtain ⟨rfl, rfl⟩ := Prod.mk.inj (Option.some.inj h)
    exact Or.inl ⟨Option.isNone_iff_eq_none.mp hselected, hcount, rfl, rfl⟩
  · obtain ⟨rfl, rfl⟩ := Prod.mk.inj (Option.some.inj h)
    exact Or.inr (Or.inl ⟨Option.isNone_iff_eq_none.mp hselected, hcount, rfl, rfl⟩)
  · obtain ⟨rfl, rfl⟩ := Prod.mk.inj (Option.some.inj h)
    rw [Option.isNone_iff_eq_none, ← ne_eq, Option.ne_none_iff_isSome] at hselected
    exact Or.inr (Or.inr ⟨hselected, rfl, rfl⟩)

/-- A tap on the cell of a row. -/
def tap (controller : InfoController UIImage) (row : ℕ) : Option (InfoController UIImage) :=
  (controller.handleCellTap row).map Prod.fst

/-- What a press of Save leads to. -/
inductive Saving where
  | alert (alert : Alert)
  | trap
  | call (call : Call)

/-- `saveHandler`. -/
def saveHandler (controller : InfoController UIImage) (session : Session) (now : Clock) : Saving :=
  if session.isAnonymous then
    .alert ⟨.localized "Wiki Save Guest Title", .localized "Wiki Save Guest Message"⟩
  else
    match controller.imageData, controller.landmarkName with
    | some imageData, some landmarkName =>
      .call (.addNew session.currentUserID imageData controller.selected.userSelectedText
        landmarkName now)
    | _, _ => .trap

end InfoController

/-! ## `PhotoController` -/

namespace PhotoController

variable {UIImage : Type}

/-- `processHandler`: the call it starts with, unless `database` is nil. -/
def processHandler (session : Session) : Option Call := session.activeID.map Call.photoLimit

/-- What the callback of `photoLimit` does. -/
inductive Limited (UIImage : Type) where
  | alert (alert : Alert)
  | trap
  | detect (image : UIImage)

/-- The callback of `photoLimit` in `processHandler`. -/
def limited (kit : UIKit UIImage) (session : Session) (imageData : Data) (limit : ℤ) :
    Limited UIImage :=
  if limit > 0 then
    match kit.ofData imageData with
    | none => .trap
    | some image => .detect image
  else
    .alert ⟨.localized "Limit Error Title",
      .localized (if session.isAnonymous then "Limit Error Message Annonymous"
        else "Limit Error Message")⟩

/-- What the callback of the detector does. -/
structure Detected (UIImage : Type) where
  alerts : List Alert
  presented : Option (InfoController UIImage)
  stopsSpinner : Bool

/-- The callback of the detector in `processHandler`, with the description of the error. -/
def detected (imageData : Data) (landmarks : Option (List VisionCloudLandmark))
    (error : Option String) : Detected UIImage :=
  let alerts : List Alert :=
    (error.map fun error ↦ ⟨.localized "Vision Error", .description error⟩).toList
  match landmarks with
  | none => { alerts := alerts, presented := none, stopsSpinner := error.isSome }
  | some landmarks =>
    if landmarks.isEmpty then
      { alerts := alerts ++ [⟨.localized "Not Detected Title", .localized "Not Detected Message"⟩]
        presented := none
        stopsSpinner := true }
    else
      { alerts := alerts
        presented := some (.ofDetection landmarks imageData)
        stopsSpinner := true }

end PhotoController

end LandCap
