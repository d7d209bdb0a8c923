import Mathlib.Logic.Function.Basic
import Mathlib.Data.Prod.Lex
import Mathlib.Data.String.Basic
import LandCap.CapDatabase.ImageName
import LandCap.Library.Runs

/-!
# `CapDatabase`: the calls and their steps

Every method of `CapDatabase` hands work to Firebase and continues in a callback.  The model cuts
each method at the points where Firebase answers: `Call` is a method with its arguments, `Task` is
the step of a call that is waiting to be carried out, and `Cloud` is the server together with the
steps in flight.  A single read and a single `setValue` are one step each; nothing is said about
the order in which the steps of different calls are carried out, so `Cloud.step` lets any step in
flight go next, and lets it fail.

A call is named by a number that no other call in flight uses.  At any moment it has at most one
step in flight, which is what makes `inFlight` a function.

The sections follow the source: the values that are stored, the calls, what one step does, and
then the frame facts about a step that the proofs of the later files rest on.
-/

set_option autoImplicit false

namespace LandCap

open PathTree

/-! ## The values -/

/-- The bytes of a photo. -/
abbrev Data := List UInt8

/-- `CapUser`. -/
structure CapUser where
  Name : Option String
  Key : UserID
  isAnonymous : Bool
  photoLimit : ℤ
  deriving DecidableEq

/-- A `CapUser` with its key and name, after `setAuthorizedUser()`. -/
def CapUser.setAuthorizedUser (key : UserID) (name : Option String) : CapUser :=
  { Name := name, Key := key, isAnonymous := false, photoLimit := 100 }

/-- A `CapUser` with its key, after `setAnonymousUser()`. -/
def CapUser.setAnonymousUser (key : UserID) : CapUser :=
  { Name := some "Guest", Key := key, isAnonymous := true, photoLimit := 10 }

/-- The dictionary `setupUser` writes.  A missing name is `NSNull`, which Firebase does not
store. -/
def CapUser.dictionary (user : CapUser) : Database :=
  (user.Name.map fun name ↦ (["name"], Leaf.string name)).toList ++
    [(["isAnonymous"], .bool user.isAnonymous), (["photoLimit"], .int user.photoLimit)]

/-- `UserImage`. -/
structure UserImage where
  text : Option String
  name : Option String
  imageURL : Option String
  id : Option String
  deriving DecidableEq

/-- The dictionary `addNew` writes. -/
def imageRecord (link text name : String) : Database :=
  [(["link"], .string link), (["text"], .string text), (["name"], .string name)]

/-- What the `childAdded` handler of `getImages` makes of a snapshot; `none` when it does not call
back. -/
def UserImage.ofSnapshot (key : String) (value : Database) : Option UserImage :=
  (asDictionary value).map fun imageObject ↦
    { text := (valueFor imageObject "text").bind Leaf.asString
      imageURL := (valueFor imageObject "link").bind Leaf.asString
      name := (valueFor imageObject "name").bind Leaf.asString
      id := some key }

/-- What `photoLimit` finds under `users/<id>`. -/
inductive LimitRead where
  /-- `value` is nil: the callback is not called. -/
  | missing
  /-- `value!["photoLimit"] as! Int` traps. -/
  | trap
  /-- `limitCount`. -/
  | count (limitCount : ℤ)
  deriving DecidableEq

/-- The part of `photoLimit` that reads the snapshot. -/
def readPhotoLimit (value : Database) : LimitRead :=
  match asDictionary value with
  | none => .missing
  | some value =>
    match (valueFor value "photoLimit").bind Leaf.asInt with
    | none => .trap
    | some limitCount => .count limitCount

/-- `photoLimit` finds a number exactly if a value that casts to it is stored. -/
theorem readPhotoLimit_eq_count {value : Database} {n : ℤ} :
    readPhotoLimit value = .count n ↔
      ∃ l, snapshot ["photoLimit"] value = [([], l)] ∧ l.asInt = some n := by
  refine ⟨fun h ↦ ?_, fun ⟨l, hl, hn⟩ ↦ ?_⟩
  · rw [readPhotoLimit] at h
    split at h
    · exact absurd h (by simp)
    · rename_i d hd
      obtain ⟨rfl, -⟩ := asDictionary_eq_some hd
      split at h
      · exact absurd h (by simp)
      · rename_i m hm
        obtain rfl : m = n := by simpa using h
        obtain ⟨l, hl, hn⟩ := Option.bind_eq_some_iff.mp hm
        exact ⟨l, leaf?_eq_some.mp hl, hn⟩
  · have hc : HasChildren value := hasChildren_of_snapshot_ne_nil (k := "photoLimit") (by simp [hl])
    rw [readPhotoLimit, asDictionary, if_pos hc]
    simp [valueFor, hl, leaf?, hn]

/-! ## Calls and steps -/

/-- The closure `uploadImage` calls with the download URL. -/
inductive Success where
  /-- From `addNew`: write a record. -/
  | record (text name : String)
  /-- From the profile screen: `update(profileUrl:)`. -/
  | profileUrl
  deriving DecidableEq

/-- A method of `CapDatabase`. -/
inductive Call where
  | setupUser (user : CapUser)
  | photoLimit (userID : UserID)
  | updateName (userID : UserID) (name : String)
  | updateProfileUrl (userID : UserID) (profileUrl : String)
  | addNew (userID : UserID) (image : Data) (text name : String) (now : Clock)
  | updateProfileImage (userID : UserID) (imageData : Data) (now : Clock)
  | getImages (userID : UserID)
  | getName (userID : UserID)
  | deleteUserImage (userID : UserID) (userImage : UserImage)

/-- A step in flight. -/
inductive Task where
  | setupRead (user : CapUser)
  | setupWrite (user : CapUser)
  | limitRead (userID : UserID)
  | limitWrite (userID : UserID) (value : ℤ)
  | nameWrite (userID : UserID) (name : String)
  | profileUrlWrite (userID : UserID) (profileUrl : String)
  | putData (userID : UserID) (path : List String) (imageData : Data) (success : Success)
  | downloadURL (userID : UserID) (path : List String) (success : Success)
  | imageWrite (userID : UserID) (key link text name : String)
  | imageRemove (userID : UserID) (id : String)
  | nameRead (userID : UserID)
  | imagesRead (userID : UserID)
  /-- A registered `childAdded` observer, with the events it has not received yet. -/
  | images (userID : UserID) (queue : List (String × Database))
  deriving DecidableEq

/-- A value handed to a callback of the caller. -/
inductive Callback where
  | limit (userID : UserID) (limitCount : ℤ)
  | trap (userID : UserID)
  | saved (userID : UserID)
  | image (userID : UserID) (userImage : UserImage)
  | name (userID : UserID) (username profileUrl : String)
  deriving DecidableEq

/-- The folder `uploadImage` puts a photo in. -/
def uploadFolder (userID : UserID) : Success → String
  | .record .. => "users/" ++ userID.val
  | .profileUrl => "users/" ++ userID.val ++ "/profileImage"

/-- `storageRef.child(path).child("\(imageID).png")`. -/
def uploadPath (userID : UserID) (success : Success) (now : Clock) : List String :=
  child (child [] (uploadFolder userID success)) (fileName now)

/-- The first step of a call.  Deleting an image that has no id does nothing. -/
def Call.task : Call → Option Task
  | .setupUser user => some (.setupRead user)
  | .photoLimit userID => some (.limitRead userID)
  | .updateName userID name => some (.nameWrite userID name)
  | .updateProfileUrl userID profileUrl => some (.profileUrlWrite userID profileUrl)
  | .addNew userID image text name now =>
    some (.putData userID (uploadPath userID (.record text name) now) image (.record text name))
  | .updateProfileImage userID imageData now =>
    some (.putData userID (uploadPath userID .profileUrl now) imageData .profileUrl)
  | .getImages userID => some (.imagesRead userID)
  | .getName userID => some (.nameRead userID)
  | .deleteUserImage userID userImage => userImage.id.map fun id ↦ .imageRemove userID id

/-- The user a call is made for. -/
def Call.user : Call → UserID
  | .setupUser user => user.Key
  | .photoLimit userID | .updateName userID _ | .updateProfileUrl userID _
  | .addNew userID .. | .updateProfileImage userID .. | .getImages userID | .getName userID
  | .deleteUserImage userID _ => userID

/-- The user a step belongs to. -/
def Task.user : Task → UserID
  | .setupRead user | .setupWrite user => user.Key
  | .limitRead userID | .limitWrite userID _ | .nameWrite userID _ | .profileUrlWrite userID _
  | .putData userID .. | .downloadURL userID .. | .imageWrite userID .. | .imageRemove userID _
  | .nameRead userID | .imagesRead userID | .images userID _ => userID

theorem Call.user_task {c : Call} {t : Task} (h : c.task = some t) : t.user = c.user := by
  cases c <;> simp only [Call.task, Option.some.injEq, Option.map_eq_some_iff] at h
  case deleteUserImage =>
    obtain ⟨id, -, rfl⟩ := h
    rfl
  all_goals exact h ▸ rfl

/-! ## The server -/

/-- What Firebase chooses: the keys `childByAutoId` makes, in order, and the URL under which a
stored object can be downloaded. -/
structure Firebase where
  autoId : ℕ → String
  downloadURL : List String → String

/-- A server that numbers its keys and spells out its paths. -/
def Firebase.plain : Firebase where
  autoId n := "-" ++ toString n
  downloadURL path := "https://storage/" ++ String.intercalate "/" path

/-- The server and the steps in flight. -/
structure Cloud where
  firebase : Firebase
  database : Database
  /-- The objects in storage, by path. -/
  storage : List String → Option Data
  /-- How many keys `childByAutoId` has made. -/
  created : ℕ
  inFlight : ℕ → Option Task
  /-- The callbacks made so far, the latest first. -/
  callbacks : List Callback

/-- The children of a node in key order, each with its snapshot. -/
def children (node : Database) : List (String × Database) :=
  ((childKeys node).mergeSort (· ≤ ·)).map fun key ↦ (key, snapshot [key] node)

/-- The `childAdded` events of one change of the database. -/
def childAdded (userID : UserID) (old new : Database) : List (String × Database) :=
  (children (snapshot (imagesRef userID) new)).filter fun e ↦
    e.1 ∉ childKeys (snapshot (imagesRef userID) old)

/-- A change of the database reaches the observers. -/
def Task.notify (old new : Database) : Task → Task
  | .images userID queue => .images userID (queue ++ childAdded userID old new)
  | t => t

/-- The database after a step. -/
def Task.write (database : Database) : Task → Database
  | .setupWrite user => setValue (userRef user.Key) user.dictionary database
  | .limitWrite userID value => setValue (photoLimitRef userID) [([], .int value)] database
  | .nameWrite userID name => setValue (nameRef userID) [([], .string name)] database
  | .profileUrlWrite userID profileUrl =>
    setValue (profileUrlRef userID) [([], .string profileUrl)] database
  | .imageWrite userID key link text name =>
    setValue (imagesRef userID ++ [key]) (imageRecord link text name) database
  | .imageRemove userID id => removeValue (child (imagesRef userID) id) database
  | _ => database

/-- What a call still has to do after the step `t`. -/
def Cloud.followUp (s : Cloud) : Task → Option Task
  | .setupRead user =>
    -- `if value == nil`
    if asDictionary (snapshot (userRef user.Key) s.database) = none then some (.setupWrite user)
    else none
  | .limitRead userID =>
    match readPhotoLimit (snapshot (userRef userID) s.database) with
    | .count limitCount =>
      if limitCount > 0 then some (.limitWrite userID (limitCount - 1)) else none
    | _ => none
  | .putData userID path _ success => some (.downloadURL userID path success)
  | .downloadURL userID path (.record text name) =>
    some (.imageWrite userID (s.firebase.autoId s.created) (s.firebase.downloadURL path) text name)
  | .downloadURL userID path .profileUrl =>
    some (.profileUrlWrite userID (s.firebase.downloadURL path))
  | .imagesRead userID =>
    some (.images userID (children (snapshot (imagesRef userID) s.database)))
  | .images userID queue => some (.images userID queue.tail)
  | _ => none

/-- The callbacks a step makes. -/
def Cloud.callback (s : Cloud) : Task → List Callback
  | .limitRead userID =>
    match readPhotoLimit (snapshot (userRef userID) s.database) with
    | .count limitCount => [.limit userID limitCount]
    | .trap => [.trap userID]
    | .missing => []
  | .downloadURL userID _ (.record ..) => [.saved userID]
  | .nameRead userID =>
    let value := snapshot (userRef userID) s.database
    [.name userID (((valueFor value "name").bind Leaf.asString).getD "")
      (((valueFor value "profileUrl").bind Leaf.asString).getD "")]
  | .images userID ((key, value) :: _) =>
    ((UserImage.ofSnapshot key value).map (Callback.image userID)).toList
  | _ => []

/-- The storage after a step: `putData` replaces the object. -/
def Task.store (storage : List String → Option Data) : Task → List String → Option Data
  | .putData _ path imageData _ => Function.update storage path (some imageData)
  | _ => storage

/-- Carry out the step `t` of the call `id`. -/
def Cloud.perform (s : Cloud) (id : ℕ) (t : Task) : Cloud where
  firebase := s.firebase
  database := t.write s.database
  storage := t.store s.storage
  created := match t with
    | .downloadURL _ _ (.record ..) => s.created + 1
    | _ => s.created
  inFlight := Function.update
    (fun j ↦ (s.inFlight j).map (Task.notify s.database (t.write s.database))) id (s.followUp t)
  callbacks := s.callback t ++ s.callbacks

/-- What can happen next. -/
inductive Action where
  /-- A device makes the call `c`, under the name `id`. -/
  | call (id : ℕ) (c : Call)
  /-- The step in flight of the call `id` is carried out. -/
  | deliver (id : ℕ)
  /-- The step in flight of the call `id` fails, and the call with it. -/
  | fail (id : ℕ)

/-- The call an action belongs to. -/
def Action.id : Action → ℕ
  | .call id _ | .deliver id | .fail id => id

/-- The transitions of the cloud. -/
def Cloud.step (s : Cloud) : Action → Option Cloud
  | .call id c =>
    if s.inFlight id = none then some { s with inFlight := Function.update s.inFlight id c.task }
    else none
  | .deliver id => (s.inFlight id).map (s.perform id)
  | .fail id =>
    (s.inFlight id).map fun _ ↦ { s with inFlight := Function.update s.inFlight id none }

/-- Nothing is in flight, and nothing has been called back. -/
structure Cloud.Idle (s : Cloud) : Prop where
  inFlight : ∀ id, s.inFlight id = none
  callbacks : s.callbacks = []

/-- A server that holds a database and is asked nothing yet. -/
def Cloud.start (firebase : Firebase) (database : Database) : Cloud :=
  { firebase := firebase, database := database, storage := fun _ ↦ none, created := 0
    inFlight := fun _ ↦ none, callbacks := [] }

theorem Cloud.idle_start (firebase : Firebase) (database : Database) :
    (Cloud.start firebase database).Idle := ⟨fun _ ↦ rfl, rfl⟩

/-! ## What a step leaves alone -/

/-- What is pending after one entry has been replaced is the new entry, or was pending before. -/
theorem update_eq_some {ι α : Type} [DecidableEq ι] {f : ι → Option α} {i j : ι} {x : Option α}
    {a : α} (h : Function.update f i x j = some a) :
    (j = i ∧ x = some a) ∨ (j ≠ i ∧ f j = some a) := by
  rcases eq_or_ne j i with rfl | hne
  · rw [Function.update_self] at h
    exact Or.inl ⟨rfl, h⟩
  · rw [Function.update_of_ne hne] at h
    exact Or.inr ⟨hne, h⟩

/-- What is pending and is not the new entry was pending before. -/
theorem update_eq_some_of_ne {ι α : Type} [DecidableEq ι] {f : ι → Option α} {i j : ι}
    {x : Option α} {a : α} (h : Function.update f i x j = some a) (hx : x ≠ some a) :
    j ≠ i ∧ f j = some a :=
  (update_eq_some h).resolve_left fun hnew ↦ hx hnew.2

theorem Cloud.step_call {s s' : Cloud} {id : ℕ} {c : Call}
    (h : s.step (.call id c) = some s') :
    s.inFlight id = none ∧ s' = { s with inFlight := Function.update s.inFlight id c.task } := by
  rw [Cloud.step] at h
  split at h
  · rename_i hn; exact ⟨hn, (Option.some.inj h).symm⟩
  · exact absurd h (by simp)

theorem Cloud.step_deliver {s s' : Cloud} {id : ℕ} (h : s.step (.deliver id) = some s') :
    ∃ t, s.inFlight id = some t ∧ s' = s.perform id t := by
  obtain ⟨t, ht, rfl⟩ := Option.map_eq_some_iff.mp h
  exact ⟨t, ht, rfl⟩

theorem Cloud.step_deliver_of {s : Cloud} {id : ℕ} {t : Task} (h : s.inFlight id = some t) :
    s.step (.deliver id) = some (s.perform id t) := by
  rw [Cloud.step, h, Option.map_some]

theorem Cloud.step_fail {s s' : Cloud} {id : ℕ} (h : s.step (.fail id) = some s') :
    s' = { s with inFlight := Function.update s.inFlight id none } := by
  obtain ⟨t, -, rfl⟩ := Option.map_eq_some_iff.mp h
  rfl

@[simp] theorem Cloud.perform_database (s : Cloud) (id : ℕ) (t : Task) :
    (s.perform id t).database = t.write s.database := rfl

@[simp] theorem Cloud.perform_callbacks (s : Cloud) (id : ℕ) (t : Task) :
    (s.perform id t).callbacks = s.callback t ++ s.callbacks := rfl

theorem Cloud.inFlight_perform (s : Cloud) (id : ℕ) (t : Task) :
    (s.perform id t).inFlight = Function.update
      (fun j ↦ (s.inFlight j).map (Task.notify s.database (t.write s.database))) id
      (s.followUp t) := rfl

@[simp] theorem Cloud.perform_inFlight_self (s : Cloud) (id : ℕ) (t : Task) :
    (s.perform id t).inFlight id = s.followUp t := by
  rw [Cloud.inFlight_perform, Function.update_self]

theorem Cloud.perform_inFlight_of_ne (s : Cloud) {id j : ℕ} (t : Task) (h : j ≠ id) :
    (s.perform id t).inFlight j
      = (s.inFlight j).map (Task.notify s.database (t.write s.database)) := by
  rw [Cloud.inFlight_perform, Function.update_of_ne h]

@[simp] theorem Task.user_notify (old new : Database) (t : Task) :
    (t.notify old new).user = t.user := by
  cases t <;> rfl

/-- A step that is not an observer is not changed by a notification. -/
theorem Task.notify_eq {old new : Database} {t t' : Task} (h : ∀ u q, t' ≠ .images u q) :
    t.notify old new = t' ↔ t = t' := by
  cases t
  case images u q =>
    refine ⟨fun he ↦ absurd he.symm (h _ _), fun he ↦ absurd he.symm (h _ _)⟩
  all_goals rfl

/-- **Every step in flight after a step** was in flight before it, apart from notifications, or
is the follow-up of the step. -/
theorem Cloud.perform_inFlight {s : Cloud} {id j : ℕ} {t t' : Task}
    (h : (s.perform id t).inFlight j = some t') (hn : ∀ u q, t' ≠ .images u q) :
    (j = id ∧ s.followUp t = some t') ∨ (j ≠ id ∧ s.inFlight j = some t') := by
  rcases eq_or_ne j id with rfl | hj
  · exact Or.inl ⟨rfl, (s.perform_inFlight_self j t).symm.trans h⟩
  · rw [s.perform_inFlight_of_ne t hj] at h
    obtain ⟨t₀, ht₀, he⟩ := Option.map_eq_some_iff.mp h
    rw [Task.notify_eq hn] at he
    exact Or.inr ⟨hj, he ▸ ht₀⟩

/-- A call that does not observe is left alone by the steps of the others. -/
theorem Cloud.perform_inFlight_eq {s : Cloud} {id j : ℕ} (t : Task) (hne : j ≠ id)
    (hn : ∀ u q, s.inFlight j ≠ some (.images u q)) :
    (s.perform id t).inFlight j = s.inFlight j := by
  rw [s.perform_inFlight_of_ne t hne]
  cases hj : s.inFlight j with
  | none => rfl
  | some t₀ =>
    have hobs : ∀ u q, t₀ ≠ .images u q := fun u q he ↦ hn u q (he ▸ hj)
    exact congrArg some ((Task.notify_eq hobs).mpr rfl)

/-- **A call is left alone by the actions of the others**, apart from notifications. -/
theorem Cloud.step_inFlight_of_ne {s s' : Cloud} {a : Action} {id : ℕ} {t : Option Task}
    (ha : a.id ≠ id) (hn : ∀ u q, t ≠ some (.images u q)) (h : s.step a = some s')
    (ht : s.inFlight id = t) : s'.inFlight id = t := by
  cases a with
  | call j c =>
    obtain ⟨-, rfl⟩ := Cloud.step_call h
    exact (Function.update_of_ne (Ne.symm ha) _ _).trans ht
  | deliver j =>
    obtain ⟨t', -, rfl⟩ := Cloud.step_deliver h
    exact (Cloud.perform_inFlight_eq t' (Ne.symm ha) (ht ▸ hn)).trans ht
  | fail j =>
    obtain rfl := Cloud.step_fail h
    exact (Function.update_of_ne (Ne.symm ha) _ _).trans ht

/-! ## How a call goes on -/

/-- The ways a call goes on: a step, the step that follows it, and what the first has read. -/
inductive Cloud.FollowUp (s : Cloud) : Task → Task → Prop
  | setupWrite (user : CapUser)
      (hread : asDictionary (snapshot (userRef user.Key) s.database) = none) :
      s.FollowUp (.setupRead user) (.setupWrite user)
  | limitWrite (userID : UserID) (limitCount : ℤ)
      (hread : readPhotoLimit (snapshot (userRef userID) s.database) = .count limitCount)
      (hpos : 0 < limitCount) :
      s.FollowUp (.limitRead userID) (.limitWrite userID (limitCount - 1))
  | downloadURL (userID : UserID) (path : List String) (imageData : Data) (success : Success) :
      s.FollowUp (.putData userID path imageData success) (.downloadURL userID path success)
  | imageWrite (userID : UserID) (path : List String) (text name : String) :
      s.FollowUp (.downloadURL userID path (.record text name))
        (.imageWrite userID (s.firebase.autoId s.created) (s.firebase.downloadURL path) text name)
  | profileUrlWrite (userID : UserID) (path : List String) :
      s.FollowUp (.downloadURL userID path .profileUrl)
        (.profileUrlWrite userID (s.firebase.downloadURL path))
  | images (userID : UserID) :
      s.FollowUp (.imagesRead userID)
        (.images userID (children (snapshot (imagesRef userID) s.database)))
  | next (userID : UserID) (queue : List (String × Database)) :
      s.FollowUp (.images userID queue) (.images userID queue.tail)

/-- **A call goes on in one of these ways** whenever it goes on. -/
theorem Cloud.followUp_cases {s : Cloud} {t t' : Task} (h : s.followUp t = some t') :
    s.FollowUp t t' := by
  cases t <;> simp only [Cloud.followUp, reduceCtorEq, Option.some.injEq] at h
  case setupRead user =>
    split at h
    · rename_i hread
      exact Option.some.inj h ▸ .setupWrite user hread
    · exact absurd h (by simp)
  case limitRead u =>
    split at h
    · rename_i limitCount hread
      split at h
      · rename_i hpos
        exact Option.some.inj h ▸ .limitWrite u limitCount hread hpos
      · exact absurd h (by simp)
    · exact absurd h (by simp)
  case putData u path data success => exact h ▸ .downloadURL u path data success
  case downloadURL u path success =>
    cases success with
    | record text name => exact Option.some.inj h ▸ .imageWrite u path text name
    | profileUrl => exact Option.some.inj h ▸ .profileUrlWrite u path
  case imagesRead u => exact h ▸ .images u
  case images u queue => exact h ▸ .next u queue

theorem Cloud.user_followUp {s : Cloud} {t t' : Task} (h : s.followUp t = some t') :
    t'.user = t.user := by
  cases Cloud.followUp_cases h <;> rfl

/-- Only a read that finds no dictionary is followed by the write of a new one. -/
theorem Cloud.followUp_eq_setupWrite {s : Cloud} {t : Task} {user : CapUser}
    (h : s.followUp t = some (.setupWrite user)) :
    t = .setupRead user ∧ ¬HasChildren (snapshot (userRef user.Key) s.database) := by
  cases Cloud.followUp_cases h with
  | setupWrite user hread => exact ⟨rfl, asDictionary_eq_none_iff.mp hread⟩

/-! ## Which branches a step changes -/

/-- **A step of another user leaves a user's branch alone.** -/
theorem Task.snapshot_write_of_user_ne {t : Task} {u : UserID} (h : t.user ≠ u)
    (database : Database) :
    snapshot (userRef u) (t.write database) = snapshot (userRef u) database := by
  have hm : ∀ v p, v ≠ u → ¬Meet (userRef v ++ p) (userRef u) := fun v p hv ↦ by
    simpa using not_meet_of_ne hv p []
  cases t <;> simp only [Task.write, Task.user] at h ⊢
  case setupWrite user =>
    exact snapshot_setValue_of_not_meet (by simpa using hm _ [] h) _ _
  case limitWrite v n =>
    exact snapshot_setValue_of_not_meet (photoLimitRef_eq v ▸ hm _ _ h) _ _
  case nameWrite v n =>
    exact snapshot_setValue_of_not_meet (nameRef_eq v ▸ hm _ _ h) _ _
  case profileUrlWrite v n =>
    exact snapshot_setValue_of_not_meet (profileUrlRef_eq v ▸ hm _ _ h) _ _
  case imageWrite v key link text name =>
    refine snapshot_setValue_of_not_meet ?_ _ _
    rw [imagesRef_eq, List.append_assoc]
    exact hm _ _ h
  case imageRemove v id =>
    refine snapshot_removeValue_of_not_meet ?_ _
    rw [child, imagesRef_eq, List.append_assoc]
    exact hm _ _ h

/-- The key below `users/<id>` a step writes, for the steps that write below it. -/
def Task.writtenKey : Task → Option String
  | .limitWrite .. => some "photoLimit"
  | .nameWrite .. => some "name"
  | .profileUrlWrite .. => some "profileUrl"
  | .imageWrite .. | .imageRemove .. => some "images"
  | _ => none

/-- **A step leaves the other keys of its user alone.**  Only `setupUser`'s write replaces more
than one of them. -/
theorem Task.snapshot_write_of_key_ne {t : Task} {u : UserID} {key : String}
    (hs : ∀ user, t ≠ .setupWrite user) (h : t.writtenKey ≠ some key) (database : Database) :
    snapshot (userRef u ++ [key]) (t.write database)
      = snapshot (userRef u ++ [key]) database := by
  by_cases hu : t.user = u
  · have hm : ∀ {k : String} (p : List String), k ≠ key →
        ¬Meet (userRef u ++ k :: p) (userRef u ++ [key]) := fun p hk ↦ not_meet_append_cons _ hk
    cases t <;> simp only [Task.write, Task.user, Task.writtenKey, ne_eq, Option.some.injEq]
      at hu h ⊢
    case setupWrite user => exact absurd rfl (hs user)
    case limitWrite v n =>
      subst hu
      exact snapshot_setValue_of_not_meet (photoLimitRef_eq v ▸ hm _ h) _ _
    case nameWrite v n =>
      subst hu
      exact snapshot_setValue_of_not_meet (nameRef_eq v ▸ hm _ h) _ _
    case profileUrlWrite v n =>
      subst hu
      exact snapshot_setValue_of_not_meet (profileUrlRef_eq v ▸ hm _ h) _ _
    case imageWrite v k link text name =>
      subst hu
      refine snapshot_setValue_of_not_meet ?_ _ _
      rw [imagesRef_eq, List.append_assoc]
      exact hm _ h
    case imageRemove v id =>
      subst hu
      refine snapshot_removeValue_of_not_meet ?_ _
      rw [child, imagesRef_eq, List.append_assoc]
      exact hm _ h
  · rw [← snapshot_snapshot, ← snapshot_snapshot, Task.snapshot_write_of_user_ne hu]

/-! ## What is read back -/

theorem snapshot_limitWrite (u : UserID) (value : ℤ) (database : Database) :
    snapshot ["photoLimit"] (snapshot (userRef u) ((Task.limitWrite u value).write database))
      = [([], .int value)] := by
  rw [snapshot_snapshot, ← photoLimitRef_eq]
  exact snapshot_setValue_self _ _ _

theorem snapshot_nameWrite (u : UserID) (name : String) (database : Database) :
    snapshot ["name"] (snapshot (userRef u) ((Task.nameWrite u name).write database))
      = [([], .string name)] := by
  rw [snapshot_snapshot, ← nameRef_eq]
  exact snapshot_setValue_self _ _ _

theorem snapshot_profileUrlWrite (u : UserID) (profileUrl : String) (database : Database) :
    snapshot ["profileUrl"]
        (snapshot (userRef u) ((Task.profileUrlWrite u profileUrl).write database))
      = [([], .string profileUrl)] := by
  rw [snapshot_snapshot, ← profileUrlRef_eq]
  exact snapshot_setValue_self _ _ _

theorem snapshot_setupWrite (user : CapUser) (database : Database) :
    snapshot (userRef user.Key) ((Task.setupWrite user).write database) = user.dictionary :=
  snapshot_setValue_self _ _ _

theorem snapshot_dictionary_photoLimit (user : CapUser) :
    snapshot ["photoLimit"] user.dictionary = [([], .int user.photoLimit)] := by
  cases h : user.Name <;> simp [CapUser.dictionary, h, snapshot, below]

end LandCap
