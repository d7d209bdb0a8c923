import LandCap.Info.Basic
import LandCap.Library.Presentation
import LandCap.Login.Navigation

/-!
# The screens on top of each other

Every screen of the app is opened by another one.  `HomeController` pushes the profile and presents
a `PhotoController` for each picture; `PhotoController` presents an `InfoController` once the
landmarks have come; both are left by dismissing what was presented, `InfoController` by a chain of
two `presentingViewController`s.  Signing out presents a new page on top of everything, and the
login flows push a new Home on the stack they were started on.

`Screens` is an install with its window.  A view controller is known by its number, and what it
remembers of Home by the number of that Home: both references are weak, so reading one gives nil
once the Home is gone.

Some events come from callbacks, with the screen they belong to wherever it may be by then.  UIKit
ignores a presentation by a view controller that is not on the topmost level, and may ignore any
other that is made by such an event, when it comes in the middle of a transition; what it does is
`accepted`.  The alerts of `CDAlertView` are views over the screen, not levels of the window.

Save stops the app for everybody but a guest, as long as `viewDidLoad` calls `testData`.  The two
actions of `handleAlert`, which is what Save should lead to, are here all the same.  What else the
screens unwrap by force does not hang on the window, and is not decided here: a picture that does
not decode in `processHandler`, the picture of `testData`, the image of a detail view that is
downloaded, the row of a cell.  `trap` lets them stop the app at any time.
-/

set_option autoImplicit false

namespace LandCap

open Presentation

/-! ## The window -/

/-- The classes of view controllers, with what a screen remembers of the one it came from. -/
inductive Screen where
  | connection
  | page
  | home
  | profile
  | photo (homeController : ℕ) (imageData : Data)
  | info (homeController : Option ℕ) (imageData : Option Data)
  | detail
  deriving DecidableEq

/-- The classes with a forced unwrap that the window does not decide. -/
def Screen.unwraps : Screen → Bool
  | .photo .. | .info .. | .profile | .detail => true
  | .connection | .page | .home => false

structure ViewController where
  id : ℕ
  screen : Screen
  deriving DecidableEq

def Controller.screen : Controller → Screen
  | .connection => .connection
  | .home => .home
  | .page => .page

/-- The view controllers of UIKit that are presented. -/
inductive SystemController where
  /-- The alert of `skipBtn`. -/
  | skip
  /-- The alert of `forgotPasswordBtn`. -/
  | forgotPassword
  /-- An alert of `alert(title:message:viewController:)`, or of `saveImage`; it has one button. -/
  | notice
  /-- `UIImagePickerController`. -/
  | imagePicker
  /-- `UIActivityViewController`. -/
  | activity
  deriving DecidableEq

structure Screens where
  install : Install
  window : Window ViewController SystemController
  /-- How many view controllers have been made. -/
  made : ℕ
  /-- The page each flow was started on. -/
  flowPage : ℕ → ℕ
  /-- A `homeController` that is nil has been unwrapped. -/
  unwrappedNil : Bool

inductive ScreensEvent where
  /-- The app is started; the argument is the reading of `isConnectedToNetwork`, here and below. -/
  | didFinishLaunching (isConnectedToNetwork : Bool)
  | listenForConnection (connection : ViewController) (isConnectedToNetwork : Bool)
  /-- Anything else that happens to the install, with the alerts that come of it. -/
  | app (e : Event) (accepted : Bool)
  | forgotPasswordBtn
  | skipBtn
  /-- The user closes a controller of the system without doing anything with it. -/
  | closeSystem
  /-- `handleMoreButton` on Home, or `handleSignOut` on the profile. -/
  | signOut
  | navigateToProfile
  /-- The back button of the profile. -/
  | back
  /-- `handleUploadingPhoto` on Home, or `handleProfileTap` on the profile. -/
  | pickImage
  | didFinishPicking (imageData : Option Data) (accepted : Bool)
  | photoOutput (home : ViewController) (imageData : Option Data) (accepted : Bool)
  /-- `cancelHandler` of `PhotoController`. -/
  | cancelPhoto
  /-- `processHandler` of `PhotoController`, with the name of its `photoLimit` call. -/
  | processHandler (id : ℕ)
  /-- The callback of the detector in `processHandler`. -/
  | detected (photo : ViewController) (landmarks : Option (List VisionCloudLandmark))
      (error : Option String) (accepted : Bool)
  /-- `handleCellTap` of `InfoController`, for a sentence too many. -/
  | tapTooMany
  /-- `cancelHandler` of `InfoController`. -/
  | cancelInfo
  /-- `saveHandler` of `InfoController`. -/
  | save
  /-- The action `morePhotos` of `handleAlert`. -/
  | morePhotos
  /-- The action `profile` of `handleAlert`. -/
  | showProfile
  | didSelectItem
  /-- `cancelHandler` of `DetailController`. -/
  | closeDetail
  /-- `trashHandler` of `DetailController` once the user has agreed, with the name of its call;
  when an alert has come over the detail view by then, `dismiss` closes the alert. -/
  | trashHandler (id : ℕ) (userImage : UserImage)
  | shareHandler
  /-- The photo of a detail view has been saved, or could not be: `saveImage`. -/
  | savedImage (detail : ViewController) (accepted : Bool)
  /-- This view controller unwraps a nil in a handler, in a block or when its view is loaded. -/
  | trap (o : ViewController)

namespace Screens

/-- The view controller the user sees, if it is of this class. -/
def showing (s : Screens) (screen : Screen) : Option ViewController :=
  s.window.front.filter fun o ↦ o.screen = screen

/-- A `UINavigationController(rootViewController:)` is presented. -/
def presentNew (s : Screens) (o : ViewController) (screen : Screen) : Screens :=
  { s with
    window := s.window.present o (.navigation ⟨s.made, screen⟩ [])
    made := s.made + 1 }

/-- A new view controller is pushed on the stack of another. -/
def pushNew (s : Screens) (o : ViewController) (screen : Screen) : Screens :=
  { s with
    window := s.window.push o ⟨s.made, screen⟩
    made := s.made + 1 }

def presentSystem (s : Screens) (o : ViewController) (d : SystemController) : Screens :=
  { s with window := s.window.present o (.system d) }

/-- What a weak reference to a Home gives. -/
def weak (s : Screens) (home : ℕ) : Option ℕ :=
  if ⟨home, .home⟩ ∈ s.window.controllers then some home else none

/-- What lies beneath the alert on top, or everything where there is none.  The actions of
`handleAlert` are taken whether there is one or not: its `CDAlertView` is over both. -/
def beneathAlert : Window ViewController SystemController → Window ViewController SystemController
  | ⟨_, .system .notice⟩ :: w => w
  | w => w

/-- A forced unwrap has failed and the app has stopped. -/
def stop (s : Screens) : Screens := { s with install := { s.install with trapped := true } }

/-- A screen makes the call `c`, under the name `id`. -/
def call (s : Screens) (id : ℕ) (c : Call) : Option Screens :=
  (s.install.step (.cloud (.call id c))).map fun install ↦ { s with install := install }

/-- `process(imageData:)` of `HomeController`. -/
def process (s : Screens) (home : ViewController) (imageData : Data) (accepted : Bool) : Screens :=
  if accepted then s.presentNew home (.photo home.id imageData) else s

/-- `application(_:didFinishLaunchingWithOptions:)`. -/
def launch (s : Screens) (isConnectedToNetwork : Bool) : Screens :=
  let root : Controller :=
    if isConnectedToNetwork then s.install.session.controller else .connection
  { s with
    install := { s.install with pending := fun _ ↦ none, trapped := false }
    window := [⟨none, .navigation ⟨s.made, root.screen⟩ []⟩]
    made := s.made + 1 }

/-! ## The login flows -/

/-- The alert whose action a tap is. -/
def alertOf : Tap → Option SystemController
  | .requestNewPassword _ => some .forgotPassword
  | .skipOkay => some .skip
  | _ => none

/-- The page a tap is made on, and the window after it: the action of an alert closes the alert. -/
def tapped (s : Screens) (t : Tap) :
    Option (ViewController × Window ViewController SystemController) :=
  match alertOf t with
  | none => (s.showing .page).map fun page ↦ (page, s.window)
  | some alert =>
    match s.window with
    | ⟨some page, .system d⟩ :: _ => if d = alert then some (page, s.window.dismiss) else none
    | _ => none

/-- The screens after an event of the install: a handler presents its alerts on the page of its
flow, and `nextController` pushes Home there. -/
def after (s : Screens) (install : Install) (id : ℕ) (accepted : Bool) : Screens :=
  let page : ViewController := ⟨s.flowPage id, .page⟩
  let alerts : ℕ := if accepted then install.alerts.length - s.install.alerts.length else 0
  let s' := (List.range alerts).foldl (fun s' _ ↦ s'.presentSystem page .notice)
    { s with install := install }
  if s.install.opened.length < install.opened.length then s'.pushNew page .home else s'

/-- An event of the install. -/
def app (s : Screens) (accepted : Bool) : Event → Option Screens
  | .tap id t => do
    let (page, window) ← s.tapped t
    let install ← s.install.step (.tap id t)
    return { s with
      install := install
      window := window
      flowPage := Function.update s.flowPage id page.id }
  | .deliver id call =>
    (s.install.step (.deliver id call)).map fun install ↦ s.after install id accepted
  -- the page for a signed-out user is presented by `signOut`, and the app is started by `launch`
  | .signOut | .relaunch => none
  | e => (s.install.step e).map fun install ↦ { s with install := install }

/-! ## Everything that can happen -/

/-- What the user does, and what is called back, while the app runs. -/
def act (s : Screens) : ScreensEvent → Option Screens
  | .listenForConnection connection connected =>
    if connection.screen = .connection then
      some (if connected then s.pushNew connection s.install.session.controller.screen else s)
    else none
  | .forgotPasswordBtn => (s.showing .page).map fun page ↦ s.presentSystem page .forgotPassword
  | .skipBtn => (s.showing .page).map fun page ↦ s.presentSystem page .skip
  | .closeSystem =>
    match s.window with
    | ⟨_, .system _⟩ :: _ => some { s with window := s.window.dismiss }
    | _ => none
  | .signOut => do
    let o ← (s.showing .home).or (s.showing .profile)
    let install ← s.install.step .signOut
    return { s with install := install }.presentNew o .page
  | .navigateToProfile => (s.showing .home).map fun home ↦
      if s.install.session.isAnonymous then s else s.pushNew home .profile
  | .back => (s.showing .profile).map fun _ ↦ { s with window := s.window.pop }
  | .pickImage => ((s.showing .home).or (s.showing .profile)).map fun o ↦
      s.presentSystem o .imagePicker
  | .didFinishPicking imageData accepted =>
    match s.window with
    | ⟨some o, .system .imagePicker⟩ :: _ =>
      let s' := { s with window := s.window.dismiss }
      match o.screen, imageData with
      | .home, some imageData => some (s'.process o imageData accepted)
      | _, _ => some s'
    | _ => none
  | .photoOutput home imageData accepted =>
    if home.screen = .home then
      some (imageData.elim s fun imageData ↦ s.process home imageData accepted)
    else none
  | .cancelPhoto =>
    match s.window.front with
    | some ⟨_, .photo _ _⟩ => some { s with window := s.window.dismiss }
    | _ => none
  | .processHandler id =>
    match s.window.front with
    | some ⟨_, .photo _ _⟩ =>
      match s.install.session.activeID with
      | some userID => s.call id (.photoLimit userID)
      -- `database` has not been set
      | none => some s.stop
    | _ => none
  | .detected photo landmarks error accepted =>
    match photo.screen with
    | .photo homeController imageData =>
      let answer : PhotoController.Detected Unit :=
        PhotoController.detected imageData landmarks error
      some (answer.presented.elim s fun infoController ↦
        if accepted then
          s.presentNew photo (.info (s.weak homeController) infoController.imageData)
        else s)
    | _ => none
  | .cancelInfo =>
    match s.window.front with
    | some ⟨_, .info _ _⟩ => some { s with window := s.window.dismissPresenting }
    | _ => none
  | .save =>
    match s.window.front with
    | some ⟨_, .info _ _⟩ =>
      if s.install.session.isAnonymous then some s
      else
        -- the buttons are disabled, and `landmarkName`, which `testData` does not set, is unwrapped
        some s.stop
    | _ => none
  | .tapTooMany =>
    match s.window.front with
    | some ⟨id, .info homeController imageData⟩ =>
      some (s.presentSystem ⟨id, .info homeController imageData⟩ .notice)
    | _ => none
  | .morePhotos =>
    match (beneathAlert s.window).front with
    | some ⟨_, .info _ _⟩ =>
      some { s with window := (beneathAlert s.window).dismissPresenting }
    | _ => none
  | .showProfile =>
    match (beneathAlert s.window).front with
    | some ⟨_, .info homeController _⟩ =>
      let s' := { s with window := (beneathAlert s.window).dismissPresenting }
      match homeController.bind s'.weak with
      | some home => some (s'.pushNew ⟨home, .home⟩ .profile)
      | none => some { s'.stop with unwrappedNil := true }
    | _ => none
  | .didSelectItem => (s.showing .profile).map fun profile ↦ s.presentNew profile .detail
  | .closeDetail => (s.showing .detail).map fun _ ↦ { s with window := s.window.dismiss }
  | .trashHandler id userImage =>
    match (beneathAlert s.window).front with
    | some ⟨_, .detail⟩ =>
      (s.call id (.deleteUserImage s.install.session.currentUserID userImage)).map fun s' ↦
        { s' with window := s'.window.dismiss }
    | _ => none
  | .shareHandler => (s.showing .detail).map fun detail ↦ s.presentSystem detail .activity
  | .savedImage detail accepted =>
    if detail.screen = .detail then
      some (if accepted then s.presentSystem detail .notice else s)
    else none
  | .trap o => if o.screen.unwraps then some s.stop else none
  | .didFinishLaunching _ | .app .. => none

def step (s : Screens) : ScreensEvent → Option Screens
  | .didFinishLaunching connected => some (s.launch connected)
  | .app e accepted => s.app accepted e
  | e => if s.install.trapped then none else s.act e

/-- The app is started for the first time. -/
def start (install : Install) (isConnectedToNetwork : Bool) : Screens :=
  launch
    { install := install, window := [], made := 0, flowPage := fun _ ↦ 0, unwrappedNil := false }
    isConnectedToNetwork

end Screens

end LandCap
