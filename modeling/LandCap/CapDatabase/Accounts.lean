import LandCap.CapDatabase.Album
import LandCap.Library.KeyedList
import LandCap.Library.Simulation

/-!
# The database as a service for accounts

What `CapDatabase` is for can be said without a tree of values: every user has an `Account`, a
record with a few optional fields and a collection of pictures, and each call reads or changes one
of its fields.  `Service` is that machine.  Its steps are those of `Cloud`, but nothing in it can
be of the wrong kind: a picture has a link, a text and a name, and an observer's queue holds
pictures.

`Account.Describes` says when a branch of the database is the encoding of an account, and
`lockstep_service` that the cloud and the service then go hand in hand: from a database that
describes accounts, whatever the calls are and however their steps are interleaved and fail, the
cloud takes exactly the steps the service takes, makes the same callbacks, and its database
describes the accounts of the service.  The one thing asked of the calls is that the id of an image
that is to be deleted names a node one level down; an id with a slash in it, or an empty one,
would cut a record into pieces or remove them all.

Three facts about the cloud are read off the service.  What is stored stays well formed
(`describable_run`); every image that is delivered is complete (`delivered_complete`); and an id
names one image for ever (`delivered_eq_of_id`).
-/

set_option autoImplicit false

namespace LandCap

open PathTree Runs

/-! ## Accounts -/

/-- The pictures of a user, in the order of their keys. -/
abbrev Pictures := KeyedList SavedImage.id

/-- What is kept for a user. -/
structure Account where
  name : Option String
  isAnonymous : Option Bool
  photoLimit : Option ℤ
  profileUrl : Option String
  images : Pictures

/-- Nothing is kept. -/
def Account.none : Account where
  name := .none
  isAnonymous := .none
  photoLimit := .none
  profileUrl := .none
  images := ∅

/-- The account `setupUser` creates. -/
def Account.new (user : CapUser) : Account where
  name := user.Name
  isAnonymous := some user.isAnonymous
  photoLimit := some user.photoLimit
  profileUrl := .none
  images := ∅

/-- The plain value under a key. -/
def Account.field (a : Account) (key : String) : Option Leaf :=
  if key = "name" then a.name.map .string
  else if key = "isAnonymous" then a.isAnonymous.map .bool
  else if key = "photoLimit" then a.photoLimit.map .int
  else if key = "profileUrl" then a.profileUrl.map .string
  else .none

/-- There is nothing in the account. -/
def Account.Missing (a : Account) : Prop :=
  a.name = .none ∧ a.isAnonymous = .none ∧ a.photoLimit = .none ∧ a.profileUrl = .none ∧
    a.images.toList = []

instance (a : Account) : Decidable a.Missing := inferInstanceAs (Decidable (_ ∧ _))

/-- The pictures of `new` whose keys `old` does not have. -/
def Account.added (old new : Account) : List SavedImage :=
  new.images.toList.filter fun e ↦ ∀ e' ∈ old.images.toList, e'.id ≠ e.id

/-! ## The service -/

/-- A step in flight. -/
inductive Job where
  | setupRead (user : CapUser)
  | setupWrite (user : CapUser)
  | limitRead (userID : UserID)
  | limitWrite (userID : UserID) (value : ℤ)
  | nameWrite (userID : UserID) (name : String)
  | profileUrlWrite (userID : UserID) (profileUrl : String)
  | putData (userID : UserID) (path : List String) (imageData : Data) (success : Success)
  | downloadURL (userID : UserID) (path : List String) (success : Success)
  | imageWrite (userID : UserID) (image : SavedImage)
  | imageRemove (userID : UserID) (id : String)
  | nameRead (userID : UserID)
  | imagesRead (userID : UserID)
  | images (userID : UserID) (queue : List SavedImage)

/-- The user a step belongs to. -/
def Job.user : Job → UserID
  | .setupRead user | .setupWrite user => user.Key
  | .limitRead userID | .limitWrite userID _ | .nameWrite userID _ | .profileUrlWrite userID _
  | .putData userID .. | .downloadURL userID .. | .imageWrite userID _ | .imageRemove userID _
  | .nameRead userID | .imagesRead userID | .images userID _ => userID

/-- The first step of a call. -/
def Call.job : Call → Option Job
  | .setupUser user => some (.setupRead user)
  | .photoLimit userID => some (.limitRead userID)
  | .updateName userID name => some (.nameWrite userID name)
  | .updateProfileUrl userID profileUrl => some (.profileUrlWrite userID profileUrl)
  | .addNew userID image text name now =>
    some (.putData userID (uploadPath userID (.record text name) now) image (.record text name))
  | .updateProfileImage userID imageData now =>
    some (.putData userID (uploadPath userID .profileUrl now) imageData .profileUrl)
  | .getImages userID => some (.imagesRead userID)
  | .getName userID => some (.nameRead userID)
  | .deleteUserImage userID userImage => userImage.id.map fun id ↦ .imageRemove userID id

/-- What a step does to the account of its user. -/
def Job.write (a : Account) : Job → Account
  | .setupWrite user => .new user
  | .limitWrite _ value => { a with photoLimit := some value }
  | .nameWrite _ name => { a with name := some name }
  | .profileUrlWrite _ profileUrl => { a with profileUrl := some profileUrl }
  | .imageWrite _ image => { a with images := a.images.insert image }
  | .imageRemove _ id => { a with images := a.images.erase id }
  | _ => a

/-- An observer is told of the pictures that are new. -/
def Job.notify (old new : UserID → Account) : Job → Job
  | .images userID queue => .images userID (queue ++ (old userID).added (new userID))
  | j => j

/-- The accounts, the objects in storage, and the steps in flight. -/
structure Service where
  firebase : Firebase
  accounts : UserID → Account
  storage : List String → Option Data
  created : ℕ
  inFlight : ℕ → Option Job
  callbacks : List Callback

/-- What a call still has to do after a step. -/
def Service.followUp (v : Service) : Job → Option Job
  | .setupRead user => if (v.accounts user.Key).Missing then some (.setupWrite user) else none
  | .limitRead userID =>
    match (v.accounts userID).photoLimit with
    | some limitCount => if limitCount > 0 then some (.limitWrite userID (limitCount - 1)) else none
    | none => none
  | .putData userID path _ success => some (.downloadURL userID path success)
  | .downloadURL userID path (.record text name) =>
    some (.imageWrite userID
      { id := v.firebase.autoId v.created, link := v.firebase.downloadURL path
        text := text, name := name })
  | .downloadURL userID path .profileUrl =>
    some (.profileUrlWrite userID (v.firebase.downloadURL path))
  | .imagesRead userID => some (.images userID (v.accounts userID).images.toList)
  | .images userID queue => some (.images userID queue.tail)
  | _ => none

/-- The callbacks a step makes. -/
def Service.callback (v : Service) : Job → List Callback
  | .limitRead userID =>
    match (v.accounts userID).photoLimit with
    | some limitCount => [.limit userID limitCount]
    | none => if (v.accounts userID).Missing then [] else [.trap userID]
  | .downloadURL userID _ (.record ..) => [.saved userID]
  | .nameRead userID =>
    [.name userID ((v.accounts userID).name.getD "") ((v.accounts userID).profileUrl.getD "")]
  | .images userID (e :: _) => [.image userID e.userImage]
  | _ => []

/-- The storage after a step. -/
def Job.store (storage : List String → Option Data) : Job → List String → Option Data
  | .putData _ path imageData _ => Function.update storage path (some imageData)
  | _ => storage

/-- Carry out the step `j` of the call `id`. -/
def Service.perform (v : Service) (id : ℕ) (j : Job) : Service :=
  let accounts := Function.update v.accounts j.user (j.write (v.accounts j.user))
  { firebase := v.firebase
    accounts := accounts
    storage := j.store v.storage
    created := match j with
      | .downloadURL _ _ (.record ..) => v.created + 1
      | _ => v.created
    inFlight := Function.update (fun i ↦ (v.inFlight i).map (Job.notify v.accounts accounts)) id
      (v.followUp j)
    callbacks := v.callback j ++ v.callbacks }

/-- The transitions of the service. -/
def Service.step (v : Service) : Action → Option Service
  | .call id c =>
    if v.inFlight id = none then some { v with inFlight := Function.update v.inFlight id c.job }
    else none
  | .deliver id => (v.inFlight id).map (v.perform id)
  | .fail id =>
    (v.inFlight id).map fun _ ↦ { v with inFlight := Function.update v.inFlight id none }

/-- The accounts after a step. -/
def Service.written (v : Service) (j : Job) : UserID → Account :=
  Function.update v.accounts j.user (j.write (v.accounts j.user))

@[simp] theorem Service.perform_callbacks (v : Service) (id : ℕ) (j : Job) :
    (v.perform id j).callbacks = v.callback j ++ v.callbacks := rfl

theorem Service.perform_inFlight (v : Service) (id : ℕ) (j : Job) :
    (v.perform id j).inFlight = Function.update
      (fun i ↦ (v.inFlight i).map (Job.notify v.accounts (v.written j))) id (v.followUp j) := rfl

/-- A step in flight after a step follows it, or was in flight before. -/
theorem Service.inFlight_perform {v : Service} {id i : ℕ} {j j' : Job}
    (h : (v.perform id j).inFlight i = some j') :
    i = id ∧ v.followUp j = some j' ∨
      i ≠ id ∧ ∃ j₀, v.inFlight i = some j₀ ∧ j' = j₀.notify v.accounts (v.written j) := by
  rw [Service.perform_inFlight] at h
  rcases update_eq_some h with hnew | ⟨hne, hold⟩
  · exact Or.inl hnew
  · obtain ⟨j₀, hj₀, he⟩ := Option.map_eq_some_iff.mp hold
    exact Or.inr ⟨hne, j₀, hj₀, he.symm⟩

/-! ## The encoding of an account -/

/-- The branch of a user is the encoding of an account: each field is a leaf, each picture a record
under its key, and there is nothing else. -/
structure Account.Describes (a : Account) (value : Database) : Prop where
  fields : ∀ key, key ≠ "images" →
    snapshot [key] value = ((a.field key).map fun l ↦ ([], l)).toList
  stored : ∀ e ∈ a.images, snapshot ["images", e.id] value = e.record
  complete : ∀ key, snapshot ["images", key] value ≠ [] → ∃ e ∈ a.images, e.id = key
  inner : ∀ l, ([], l) ∉ value ∧ (["images"], l) ∉ value

theorem Account.describes_none : Account.none.Describes [] where
  fields key _ := by simp [Account.none, Account.field, snapshot]
  stored e he := absurd he (KeyedList.notMem_empty e)
  complete key hkey := absurd rfl hkey
  inner l := ⟨List.not_mem_nil, List.not_mem_nil⟩

section Describes

variable {a : Account} {value : Database}

theorem Account.Describes.snapshot_images (h : a.Describes value) (key : String) :
    snapshot ["images", key] value ≠ [] ↔ ∃ e ∈ a.images, e.id = key := by
  refine ⟨h.complete key, ?_⟩
  rintro ⟨e, he, rfl⟩
  rw [h.stored e he]
  exact e.record_ne_nil

/-- The value under a key is the field. -/
theorem Account.Describes.valueFor (h : a.Describes value) {key : String} (hkey : key ≠ "images") :
    valueFor value key = a.field key := by
  rw [LandCap.valueFor, h.fields key hkey]
  cases a.field key <;> rfl

/-- **An account with nothing in it is a node that is missing.** -/
theorem Account.Describes.asDictionary_eq_none (h : a.Describes value) :
    asDictionary value = .none ↔ a.Missing := by
  rw [asDictionary_eq_none_iff]
  constructor
  · intro hno
    have hfield : ∀ key, key ≠ "images" → a.field key = .none := by
      intro key hkey
      by_contra hne
      refine hno (hasChildren_of_snapshot_ne_nil (k := key) ?_)
      rw [h.fields key hkey]
      obtain ⟨l, hl⟩ := Option.ne_none_iff_exists'.mp hne
      simp [hl]
    have himages : a.images.toList = [] := by
      refine List.eq_nil_iff_forall_not_mem.mpr fun e he ↦ hno ?_
      refine hasChildren_of_snapshot_ne_nil (k := "images") fun hnil ↦ ?_
      have hkey := (h.snapshot_images e.id).mpr ⟨e, he, rfl⟩
      rw [show ["images", e.id] = ["images"] ++ [e.id] from rfl, ← snapshot_snapshot, hnil] at hkey
      exact hkey rfl
    exact ⟨by simpa [Account.field] using hfield "name" (by decide),
      by simpa [Account.field] using hfield "isAnonymous" (by decide),
      by simpa [Account.field] using hfield "photoLimit" (by decide),
      by simpa [Account.field] using hfield "profileUrl" (by decide), himages⟩
  · rintro ⟨hname, hanonymous, hlimit, hurl, himages⟩ ⟨⟨p, l⟩, hmem, -⟩
    cases p with
    | nil => exact (h.inner l).1 hmem
    | cons key r =>
      have hkey : snapshot [key] value ≠ [] := List.ne_nil_of_mem (mem_snapshot.mpr hmem)
      by_cases hi : key = "images"
      · subst hi
        cases r with
        | nil => exact (h.inner l).2 hmem
        | cons id r =>
          have hid : snapshot ["images", id] value ≠ [] :=
            List.ne_nil_of_mem (mem_snapshot (p := ["images", id]).mpr hmem)
          obtain ⟨e, he, -⟩ := h.complete id hid
          rw [KeyedList.mem_def, himages] at he
          exact absurd he List.not_mem_nil
      · refine hkey ?_
        rw [h.fields key hi]
        simp [Account.field, hname, hanonymous, hlimit, hurl]

/-- What `photoLimit` finds. -/
theorem Account.Describes.readPhotoLimit (h : a.Describes value) :
    readPhotoLimit value = match a.photoLimit with
      | some limitCount => .count limitCount
      | .none => if a.Missing then .missing else .trap := by
  have hfield : LandCap.valueFor value "photoLimit" = a.photoLimit.map .int :=
    (h.valueFor (by decide)).trans (by simp [Account.field])
  rw [LandCap.readPhotoLimit]
  by_cases hm : a.Missing
  · rw [h.asDictionary_eq_none.mpr hm, hm.2.2.1, if_pos hm]
  · obtain ⟨d, hd⟩ := Option.ne_none_iff_exists'.mp fun hn ↦ hm (h.asDictionary_eq_none.mp hn)
    obtain ⟨rfl, -⟩ := asDictionary_eq_some hd
    rw [hd, if_neg hm]
    simp only [hfield]
    cases a.photoLimit <;> rfl

theorem Account.Describes.name (h : a.Describes value) :
    (LandCap.valueFor value "name").bind Leaf.asString = a.name := by
  rw [h.valueFor (by decide), Account.field, if_pos rfl]
  cases a.name <;> rfl

theorem Account.Describes.profileUrl (h : a.Describes value) :
    (LandCap.valueFor value "profileUrl").bind Leaf.asString = a.profileUrl := by
  rw [h.valueFor (by decide)]
  simp only [Account.field, reduceIte, String.reduceEq]
  cases a.profileUrl <;> rfl

/-- **An observer is told the pictures, in order.** -/
theorem Account.Describes.children (h : a.Describes value) :
    children (snapshot ["images"] value) = a.images.toList.map fun e ↦ (e.id, e.record) := by
  rw [LandCap.children_eq a.images.sorted fun key ↦ ?_, List.map_map]
  · refine List.map_congr_left fun e he ↦ ?_
    rw [Function.comp_apply, snapshot_snapshot]
    exact congrArg _ (h.stored e he)
  · rw [snapshot_snapshot, List.cons_append, List.nil_append, h.snapshot_images, List.mem_map]
    rfl

end Describes

/-! ## The writes -/

/-- Different pictures have different branches. -/
theorem not_meet_image {k k' : String} (h : k ≠ k') : ¬Meet ["images", k] ["images", k'] :=
  not_meet_append_cons ["images"] h

section Write

variable {a b : Account} {value : Database}

/-- **A field is written.** -/
theorem Account.Describes.setField (h : a.Describes value) {key : String} {l : Leaf}
    (hkey : key ≠ "images") (hfield : ∀ k, b.field k = if k = key then some l else a.field k)
    (himages : b.images = a.images) : b.Describes (setValue [key] [([], l)] value) where
  fields k hk := by
    rw [hfield]
    split
    · rename_i he
      rw [he, snapshot_setValue_self]
      rfl
    · rename_i he
      rw [snapshot_setValue_of_not_meet (not_meet_cons (Ne.symm he)), h.fields k hk]
  stored e he := by
    rw [snapshot_setValue_of_not_meet (not_meet_cons hkey)]
    exact h.stored e (himages ▸ he)
  complete k hk := by
    rw [snapshot_setValue_of_not_meet (not_meet_cons hkey)] at hk
    exact himages ▸ h.complete k hk
  inner m := by
    refine ⟨fun hm ↦ ?_, fun hm ↦ ?_⟩ <;> rcases mem_setValue hm with ⟨hm, -⟩ | ⟨r, hr, he⟩
    · exact (h.inner m).1 hm
    · exact absurd he (by simp)
    · exact (h.inner m).2 hm
    · exact hkey (by simpa using (List.cons.inj he).1.symm)

/-- A picture is written. -/
theorem Account.Describes.insertImage (h : a.Describes value) (e : SavedImage) :
    { a with images := a.images.insert e : Account }.Describes
      (setValue ["images", e.id] e.record value) where
  fields k hk := by
    rw [snapshot_setValue_of_not_meet (not_meet_cons (Ne.symm hk))]
    exact h.fields k hk
  stored e' he' := by
    rcases KeyedList.mem_insert.mp he' with rfl | ⟨he', hne⟩
    · exact snapshot_setValue_self _ _ _
    · rw [snapshot_setValue_of_not_meet (not_meet_image (Ne.symm hne))]
      exact h.stored e' he'
  complete k hk := by
    by_cases he : k = e.id
    · exact ⟨e, KeyedList.mem_insert.mpr (Or.inl rfl), he.symm⟩
    · rw [snapshot_setValue_of_not_meet (not_meet_image (Ne.symm he))] at hk
      obtain ⟨e', he', rfl⟩ := h.complete k hk
      exact ⟨e', KeyedList.mem_insert.mpr (Or.inr ⟨he', he⟩), rfl⟩
  inner m := by
    refine ⟨fun hm ↦ ?_, fun hm ↦ ?_⟩ <;> rcases mem_setValue hm with ⟨hm, -⟩ | ⟨r, hr, he⟩
    · exact (h.inner m).1 hm
    · exact absurd he (by simp)
    · exact (h.inner m).2 hm
    · exact absurd he (by simp)

/-- A picture is removed. -/
theorem Account.Describes.eraseImage (h : a.Describes value) (id : String) :
    { a with images := a.images.erase id : Account }.Describes
      (removeValue ["images", id] value) where
  fields k hk := by
    rw [snapshot_removeValue_of_not_meet (not_meet_cons (Ne.symm hk))]
    exact h.fields k hk
  stored e he := by
    obtain ⟨he, hne⟩ := KeyedList.mem_erase.mp he
    rw [snapshot_removeValue_of_not_meet (not_meet_image (Ne.symm hne))]
    exact h.stored e he
  complete k hk := by
    by_cases he : k = id
    · rw [he, snapshot_removeValue_self] at hk
      exact absurd rfl hk
    · rw [snapshot_removeValue_of_not_meet (not_meet_image (Ne.symm he))] at hk
      obtain ⟨e, hmem, rfl⟩ := h.complete k hk
      exact ⟨e, KeyedList.mem_erase.mpr ⟨hmem, he⟩, rfl⟩
  inner m := ⟨fun hm ↦ (h.inner m).1 (List.mem_of_mem_filter hm),
    fun hm ↦ (h.inner m).2 (List.mem_of_mem_filter hm)⟩

/-- **The account `setupUser` creates is what it writes.** -/
theorem Account.describes_new (user : CapUser) : (Account.new user).Describes user.dictionary where
  fields key _ := by
    by_cases hname : key = "name"
    · subst hname
      cases hn : user.Name <;>
        simp [CapUser.dictionary, hn, Account.field, Account.new, snapshot, below]
    · -- under any other key the name is not seen, whether there is one or not
      have hrest : snapshot [key] user.dictionary = snapshot [key]
          [(["isAnonymous"], .bool user.isAnonymous), (["photoLimit"], .int user.photoLimit)] := by
        cases hn : user.Name <;> simp [CapUser.dictionary, hn, snapshot_leaf, hname]
      rw [hrest, snapshot_leaf, snapshot_leaf]
      simp only [Account.field, Account.new, if_neg hname]
      split_ifs <;> simp_all [snapshot]
  stored e he := absurd he (KeyedList.notMem_empty e)
  complete key hkey := by
    refine absurd ?_ hkey
    cases hn : user.Name <;> simp [CapUser.dictionary, hn, snapshot, below]
  inner l := by
    cases hn : user.Name <;> simp [CapUser.dictionary, hn]

end Write

/-! ## The cloud and the service -/

/-- The step of the cloud that a step of the service stands for. -/
def Job.task : Job → Task
  | .setupRead user => .setupRead user
  | .setupWrite user => .setupWrite user
  | .limitRead userID => .limitRead userID
  | .limitWrite userID value => .limitWrite userID value
  | .nameWrite userID name => .nameWrite userID name
  | .profileUrlWrite userID profileUrl => .profileUrlWrite userID profileUrl
  | .putData userID path imageData success => .putData userID path imageData success
  | .downloadURL userID path success => .downloadURL userID path success
  | .imageWrite userID e => .imageWrite userID e.id e.link e.text e.name
  | .imageRemove userID id => .imageRemove userID id
  | .nameRead userID => .nameRead userID
  | .imagesRead userID => .imagesRead userID
  | .images userID queue => .images userID (queue.map fun e ↦ (e.id, e.record))

/-- The id of a picture that is to be removed names a node one level down. -/
def Job.Plain : Job → Prop
  | .imageRemove _ id => components id = [id]
  | _ => True

/-- A deletion is given an id that names a node one level down. -/
def PlainDelete : Action → Prop
  | .call _ (.deleteUserImage _ userImage) => ∀ id ∈ userImage.id, components id = [id]
  | .call .. | .deliver _ | .fail _ => True

/-- The branches of the database are the encodings of the accounts. -/
def Encodes (database : Database) (accounts : UserID → Account) : Prop :=
  ∀ u, (accounts u).Describes (snapshot (userRef u) database)

/-- The cloud is the encoding of the service. -/
structure Cloud.Represents (s : Cloud) (v : Service) : Prop where
  firebase : s.firebase = v.firebase
  accounts : Encodes s.database v.accounts
  storage : s.storage = v.storage
  created : s.created = v.created
  inFlight : ∀ id, s.inFlight id = (v.inFlight id).map Job.task
  callbacks : s.callbacks = v.callbacks
  plain : ∀ id j, v.inFlight id = some j → j.Plain

@[simp] theorem Job.user_task (j : Job) : j.task.user = j.user := by
  cases j <;> rfl

theorem Call.task_eq (c : Call) : c.task = c.job.map Job.task := by
  cases c
  case deleteUserImage u userImage =>
    cases h : userImage.id <;> simp [Call.task, Call.job, h, Job.task]
  all_goals rfl

section Step

variable {s : Cloud} {v : Service} {id : ℕ} {j : Job}

/-- **A write changes the account it is for as the service says.** -/
theorem Encodes.write {database : Database} {accounts : UserID → Account}
    (h : Encodes database accounts) (hj : j.Plain) :
    Encodes (j.task.write database)
      (Function.update accounts j.user (j.write (accounts j.user))) := by
  intro u
  rcases eq_or_ne u j.user with rfl | hu
  · rw [Function.update_self]
    have hu := h j.user
    cases j <;> try exact hu
    case setupWrite user =>
      exact (snapshot_setupWrite user database).symm ▸ Account.describes_new user
    case limitWrite u value =>
      rw [Job.task, Task.write, photoLimitRef_eq, Job.user, snapshot_setValue_above]
      refine hu.setField (by decide) (fun k ↦ ?_) rfl
      by_cases hk : k = "photoLimit" <;> simp [Account.field, Job.write, Job.user, hk]
    case nameWrite u name =>
      rw [Job.task, Task.write, nameRef_eq, Job.user, snapshot_setValue_above]
      refine hu.setField (by decide) (fun k ↦ ?_) rfl
      by_cases hk : k = "name" <;> simp [Account.field, Job.write, Job.user, hk]
    case profileUrlWrite u profileUrl =>
      rw [Job.task, Task.write, profileUrlRef_eq, Job.user, snapshot_setValue_above]
      refine hu.setField (by decide) (fun k ↦ ?_) rfl
      by_cases hk : k = "profileUrl" <;> simp [Account.field, Job.write, Job.user, hk]
    case imageWrite u e =>
      rw [Job.task, Task.write, imagesRef_eq, Job.user, List.append_assoc, snapshot_setValue_above]
      exact hu.insertImage e
    case imageRemove u id =>
      have hid : components id = [id] := hj
      rw [Job.task, Task.write, child, hid, imagesRef_eq, Job.user, List.append_assoc,
        snapshot_removeValue_above]
      exact hu.eraseImage id
  · rw [Function.update_of_ne hu, Task.snapshot_write_of_user_ne (by simpa using hu.symm)]
    exact h u

theorem Encodes.children {database : Database} {accounts : UserID → Account}
    (h : Encodes database accounts) (u : UserID) :
    children (snapshot (imagesRef u) database)
      = (accounts u).images.toList.map fun e ↦ (e.id, e.record) := by
  rw [imagesRef_eq, ← snapshot_snapshot]
  exact (h u).children

/-- **The observers are told of the same pictures.** -/
theorem Encodes.childAdded {old new : Database} {accounts accounts' : UserID → Account}
    (h : Encodes old accounts) (h' : Encodes new accounts') (u : UserID) :
    childAdded u old new
      = ((accounts u).added (accounts' u)).map fun e ↦ (e.id, e.record) := by
  rw [LandCap.childAdded, h'.children, Account.added, List.filter_map]
  refine congrArg _ (List.filter_congr fun e _ ↦ ?_)
  have hkey : e.id ∈ childKeys (snapshot (imagesRef u) old) ↔
      ∃ e' ∈ (accounts u).images, e'.id = e.id := by
    rw [mem_childKeys, imagesRef_eq, ← snapshot_snapshot, snapshot_snapshot]
    exact (h u).snapshot_images e.id
  simp only [Function.comp_apply, decide_eq_decide, hkey, not_exists, not_and]
  rfl

theorem Encodes.notify {old new : Database} {accounts accounts' : UserID → Account}
    (h : Encodes old accounts) (h' : Encodes new accounts') (j : Job) :
    j.task.notify old new = (j.notify accounts accounts').task := by
  cases j
  case images u queue =>
    simp [Job.task, Task.notify, Job.notify, h.childAdded h']
  all_goals rfl

/-- A call goes on in the service as it does in the cloud. -/
theorem Cloud.Represents.followUp (h : s.Represents v) (j : Job) :
    s.followUp j.task = (v.followUp j).map Job.task := by
  cases j <;> try rfl
  case setupRead user =>
    rw [Job.task, Cloud.followUp, Service.followUp]
    simp only [(h.accounts user.Key).asDictionary_eq_none]
    split <;> rfl
  case limitRead u =>
    rw [Job.task, Cloud.followUp, Service.followUp, (h.accounts u).readPhotoLimit]
    cases (v.accounts u).photoLimit with
    | some limitCount => by_cases hpos : 0 < limitCount <;> simp [hpos, Job.task]
    | none => by_cases hm : (v.accounts u).Missing <;> simp [hm]
  case downloadURL u path success =>
    cases success <;> simp [Job.task, Cloud.followUp, Service.followUp, h.firebase, h.created]
  case imagesRead u =>
    simp [Job.task, Cloud.followUp, Service.followUp, h.accounts.children]
  case images u queue =>
    simp [Job.task, Cloud.followUp, Service.followUp]

/-- **The same values are called back.** -/
theorem Cloud.Represents.callback (h : s.Represents v) (j : Job) :
    s.callback j.task = v.callback j := by
  cases j <;> try rfl
  case limitRead u =>
    rw [Job.task, Cloud.callback, Service.callback, (h.accounts u).readPhotoLimit]
    cases (v.accounts u).photoLimit with
    | some limitCount => rfl
    | none => by_cases hm : (v.accounts u).Missing <;> simp [hm]
  case downloadURL u path success => cases success <;> rfl
  case nameRead u =>
    simp [Job.task, Cloud.callback, Service.callback, (h.accounts u).name,
      (h.accounts u).profileUrl]
  case images u queue =>
    cases queue with
    | nil => rfl
    | cons e queue => simp [Job.task, Cloud.callback, Service.callback, e.ofSnapshot_record]

/-- A call that goes on after a step removes nothing. -/
theorem Service.plain_followUp {j' : Job} (h : v.followUp j = some j') : j'.Plain := by
  cases j <;> simp only [Service.followUp, reduceCtorEq, Option.some.injEq] at h
  case setupRead user =>
    split at h
    · exact Option.some.inj h ▸ trivial
    · exact absurd h (by simp)
  case limitRead u =>
    split at h
    · split at h
      · exact Option.some.inj h ▸ trivial
      · exact absurd h (by simp)
    · exact absurd h (by simp)
  case downloadURL u path success => cases success <;> exact Option.some.inj h ▸ trivial
  all_goals exact h ▸ trivial

theorem Job.plain_notify {old new : UserID → Account} (h : j.Plain) : (j.notify old new).Plain := by
  cases j <;> exact h

/-- **The step lemma**: a step in flight does the same in the cloud and in the service. -/
theorem Cloud.Represents.perform (h : s.Represents v) (hid : v.inFlight id = some j) :
    (s.perform id j.task).Represents (v.perform id j) where
  firebase := h.firebase
  accounts := h.accounts.write (h.plain id j hid)
  storage := by
    show j.task.store s.storage = j.store v.storage
    rw [h.storage]
    cases j <;> rfl
  created := by
    have hc := h.created
    cases j <;> try exact hc
    case downloadURL u path success =>
      cases success
      · exact congrArg (· + 1) hc
      · exact hc
  inFlight i := by
    rcases eq_or_ne i id with rfl | hne
    · rw [Cloud.perform_inFlight_self, h.followUp, Service.perform_inFlight, Function.update_self]
    · rw [s.perform_inFlight_of_ne _ hne, h.inFlight, Service.perform_inFlight,
        Function.update_of_ne hne, Option.map_map, Option.map_map]
      refine congrFun (congrArg _ (funext fun j' ↦ ?_)) _
      exact h.accounts.notify (h.accounts.write (h.plain id j hid)) j'
  callbacks := by
    rw [Cloud.perform_callbacks, h.callback, h.callbacks]
    rfl
  plain i j' hi := by
    rcases Service.inFlight_perform hi with ⟨-, hf⟩ | ⟨-, j₀, hj₀, rfl⟩
    · exact Service.plain_followUp hf
    · exact Job.plain_notify (h.plain i j₀ hj₀)

/-- Putting the same step in the place of another. -/
theorem Cloud.Represents.update (h : s.Represents v) (id : ℕ) {j : Option Job}
    (hj : ∀ j' ∈ j, j'.Plain) :
    { s with inFlight := Function.update s.inFlight id (j.map Job.task) : Cloud }.Represents
      { v with inFlight := Function.update v.inFlight id j } where
  firebase := h.firebase
  accounts := h.accounts
  storage := h.storage
  created := h.created
  inFlight i := by
    rcases eq_or_ne i id with rfl | hne
    · simp only [Function.update_self]
    · simp only [Function.update_of_ne hne, h.inFlight]
  callbacks := h.callbacks
  plain i j' hi := by
    rcases update_eq_some hi with ⟨-, hf⟩ | ⟨-, hold⟩
    · exact hj j' hf
    · exact h.plain i j' hold

end Step

/-- The first step of a call removes nothing but what a deletion is given. -/
theorem plain_job {id : ℕ} {c : Call} (h : PlainDelete (.call id c)) : ∀ j ∈ c.job, j.Plain := by
  intro j hj
  cases c
  case deleteUserImage u userImage =>
    obtain ⟨key, hkey, rfl⟩ := Option.map_eq_some_iff.mp hj
    exact h key hkey
  all_goals exact Option.some.inj hj ▸ trivial

/-- **The cloud and the service go in lockstep.** -/
theorem lockstep_service :
    Lockstep Cloud.step Service.step (fun _ a ↦ PlainDelete a) Cloud.Represents := by
  intro s v a h ha
  cases a with
  | call id c =>
    simp only [Cloud.step, Service.step, h.inFlight, Option.map_eq_none_iff]
    split
    · exact .some (c.task_eq ▸ h.update id (plain_job ha))
    · exact .none
  | deliver id =>
    rw [Cloud.step, Service.step, h.inFlight]
    cases hid : v.inFlight id with
    | none => exact .none
    | some j => exact .some (h.perform hid)
  | fail id =>
    rw [Cloud.step, Service.step, h.inFlight]
    cases hid : v.inFlight id with
    | none => exact .none
    | some j => exact .some (h.update id (j := none) (by simp))

/-- **The cloud is a service for accounts.**  From a cloud that represents a service, whatever is
called and in whatever order the steps are carried out or fail, the two take the same actions and
the cloud goes on representing the service: the same values are called back, and the database is
the encoding of the accounts. -/
theorem cloud_represents_service {s : Cloud} {v : Service} {as : List Action}
    (h : s.Represents v) (hplain : ∀ a ∈ as, PlainDelete a) :
    Option.Rel Cloud.Represents (run Cloud.step s as) (run Service.step v as) :=
  lockstep_service.run h (Meets.of_mem hplain)

/-- The service in the place of an idle cloud. -/
def Service.start (s : Cloud) (accounts : UserID → Account) : Service where
  firebase := s.firebase
  accounts := accounts
  storage := s.storage
  created := s.created
  inFlight := fun _ ↦ none
  callbacks := []

theorem represents_start {s : Cloud} {accounts : UserID → Account} (hs : s.Idle)
    (h : Encodes s.database accounts) : s.Represents (.start s accounts) where
  firebase := rfl
  accounts := h
  storage := rfl
  created := rfl
  inFlight id := hs.inFlight id
  callbacks := hs.callbacks
  plain id j hid := absurd hid (by simp [Service.start])

/-- An empty database is the encoding of empty accounts. -/
theorem encodes_nil : Encodes [] fun _ ↦ .none := fun _ ↦ Account.describes_none

/-- A picture is saved and deleted again. -/
theorem cloud_represents_service_deletingTower :
    Option.Rel Cloud.Represents (run Cloud.step (.start .growing []) (savingTwo ++ deletingTower))
      (run Service.step (.start (.start .growing []) fun _ ↦ .none)
        (savingTwo ++ deletingTower)) := by
  have hid : components tower.id = [tower.id] := by decide
  exact cloud_represents_service (represents_start (Cloud.idle_start _ _) encodes_nil)
    (by simp [savingTwo, deletingTower, uploadSteps, PlainDelete, SavedImage.userImage, hid])

end LandCap
