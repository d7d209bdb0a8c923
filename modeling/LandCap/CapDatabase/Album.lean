import Mathlib.Data.List.Sort
import LandCap.CapDatabase.Isolation
import LandCap.CapDatabase.Objects

/-!
# The saved images are a list

`addNew` writes a record under a key `childByAutoId` makes, `getImages` decodes the records in key
order, and `deleteUserImage` removes the record under the key it finds in the image it is given.
To the user this is a list: an addition goes to its end, a deletion takes one entry out, and
`getImages` reads it from the beginning.

`Album` is the cloud together with that list, `saved`, and the call behind every name, which is all
the list depends on: `Album.edit` appends an entry with the text and the name of the call when its
record gets a key, and deletes by the id of the image a deletion is called with.  `Listed` ties the
list to the tree.  Every entry has its record, or the write of that record is still in flight, and
no other record exists; the keys ascend, since a new one is later than all that have been made.
The rest of the invariant, `Shown`, follows the keys that users have seen: only a key whose record
has been written is ever shown, which is why no deletion overtakes the write of its record.

`saved_images_are_list` concludes that a new observer is told the list, entry by entry, and that
deleting what it is told removes that record and no other.
-/

set_option autoImplicit false

namespace LandCap

open PathTree Runs

/-! ## The list -/

/-- An entry of the list: the key of a record, and what `addNew` wrote under it. -/
structure SavedImage where
  id : String
  link : String
  text : String
  name : String
  deriving DecidableEq

/-- The record of an entry. -/
def SavedImage.record (e : SavedImage) : Database := imageRecord e.link e.text e.name

/-- The image that is to be delivered for an entry. -/
def SavedImage.userImage (e : SavedImage) : UserImage where
  text := some e.text
  name := some e.name
  imageURL := some e.link
  id := some e.id

/-- `getImages` decodes what `addNew` has encoded. -/
theorem SavedImage.ofSnapshot_record (e : SavedImage) :
    UserImage.ofSnapshot e.id e.record = some e.userImage := by
  simp [UserImage.ofSnapshot, asDictionary, HasChildren, SavedImage.record, imageRecord, valueFor,
    snapshot, below, leaf?, Leaf.asString, SavedImage.userImage]

/-- The cloud, the call behind each name, and the list of what `u` has saved. -/
structure Album where
  cloud : Cloud
  calls : ℕ → Option Call
  saved : List SavedImage

/-- A cloud in which nothing has been saved. -/
def Album.of (s : Cloud) : Album := { cloud := s, calls := fun _ ↦ none, saved := [] }

/-- What becomes of the list when a step of the call is carried out. -/
def Album.edit (u : UserID) (s : Album) : Option Call → Option Task → List SavedImage
  | some (.addNew v _ text name now), some (.downloadURL ..) =>
    -- the record gets its key
    if v = u then
      s.saved ++ [{ id := s.cloud.firebase.autoId s.cloud.created
                    link := s.cloud.firebase.downloadURL (uploadPath v (.record text name) now)
                    text := text
                    name := name }]
    else s.saved
  | some (.deleteUserImage v userImage), some (.imageRemove ..) =>
    if v = u then s.saved.filter fun e ↦ some e.id ≠ userImage.id else s.saved
  | _, _ => s.saved

/-- A step of the cloud, and what it does to the list. -/
def Album.step (u : UserID) (s : Album) (a : Action) : Option Album :=
  (s.cloud.step a).map fun cloud ↦
    match a with
    | .call id c => { s with cloud := cloud, calls := Function.update s.calls id (some c) }
    | .deliver id =>
      { s with cloud := cloud, saved := s.edit u (s.calls id) (s.cloud.inFlight id) }
    | .fail _ => { s with cloud := cloud }

/-- The step is the write of `setupUser` for `u`. -/
def Task.SetsUp (u : UserID) : Task → Prop
  | .setupWrite user => user.Key = u
  | _ => False

/-- The step writes a record of `u`. -/
def Task.AddsRecord (u : UserID) : Task → Prop
  | .imageWrite v .. => v = u
  | _ => False

/-- A deletion of `u` is given an image that `getImages` has delivered, no record of `u` fails to be
written once it has its key, and `setupUser` does not replace the node of `u`. -/
def Album.Orderly (u : UserID) (s : Album) : Action → Prop
  | .call _ (.deleteUserImage v userImage) => v = u → Callback.image u userImage ∈ s.cloud.callbacks
  | .call .. => True
  | .deliver id => ∀ t ∈ s.cloud.inFlight id, ¬t.SetsUp u
  | .fail id => ∀ t ∈ s.cloud.inFlight id, ¬t.AddsRecord u

instance (u : UserID) : DecidablePred (Task.SetsUp u)
  | .setupWrite user => inferInstanceAs (Decidable (user.Key = u))
  | .setupRead _ | .limitRead _ | .limitWrite .. | .nameWrite .. | .profileUrlWrite ..
  | .putData .. | .downloadURL .. | .imageWrite .. | .imageRemove .. | .nameRead _
  | .imagesRead _ | .images .. => inferInstanceAs (Decidable False)

instance (u : UserID) : DecidablePred (Task.AddsRecord u)
  | .imageWrite v .. => inferInstanceAs (Decidable (v = u))
  | .setupRead _ | .setupWrite _ | .limitRead _ | .limitWrite .. | .nameWrite ..
  | .profileUrlWrite .. | .putData .. | .downloadURL .. | .imageRemove .. | .nameRead _
  | .imagesRead _ | .images .. => inferInstanceAs (Decidable False)

instance (u : UserID) (s : Album) (a : Action) : Decidable (s.Orderly u a) :=
  match a with
  | .call _ (.deleteUserImage v userImage) =>
    inferInstanceAs (Decidable (v = u → Callback.image u userImage ∈ s.cloud.callbacks))
  | .call _ (.setupUser _) | .call _ (.photoLimit _) | .call _ (.updateName ..)
  | .call _ (.updateProfileUrl ..) | .call _ (.addNew ..) | .call _ (.updateProfileImage ..)
  | .call _ (.getImages _) | .call _ (.getName _) => inferInstanceAs (Decidable True)
  | .deliver id => inferInstanceAs (Decidable (∀ t ∈ s.cloud.inFlight id, ¬t.SetsUp u))
  | .fail id => inferInstanceAs (Decidable (∀ t ∈ s.cloud.inFlight id, ¬t.AddsRecord u))

/-- The keys `childByAutoId` makes ascend, and each names a node one level down. -/
structure Firebase.Ascending (firebase : Firebase) : Prop where
  increasing : StrictMono firebase.autoId
  plain : ∀ n, components (firebase.autoId n) = [firebase.autoId n]

/-! ## The invariant -/

/-- The record under the key is about to be written. -/
def Awaited (u : UserID) (s : Cloud) (key : String) : Prop :=
  ∃ id link text name, s.inFlight id = some (.imageWrite u key link text name)

/-- `childByAutoId` has made the key. -/
def Made (s : Cloud) (key : String) : Prop := ∃ n < s.created, key = s.firebase.autoId n

/-- The record under the key has been written, whether or not it is still there. -/
def Past (u : UserID) (s : Cloud) (key : String) : Prop := Made s key ∧ ¬Awaited u s key

/-- The list is what is stored and what is about to be stored. -/
structure Listed (u : UserID) (s : Cloud) (saved : List SavedImage) : Prop where
  ascending : s.firebase.Ascending
  made : ∀ e ∈ saved, Made s e.id
  sorted : (saved.map SavedImage.id).Pairwise (· < ·)
  written : ∀ id key link text name, s.inFlight id = some (.imageWrite u key link text name) →
    { id := key, link := link, text := text, name := name } ∈ saved ∧
      imageAt u key s.database = []
  single : ∀ i j key link text name link' text' name',
    s.inFlight i = some (.imageWrite u key link text name) →
      s.inFlight j = some (.imageWrite u key link' text' name') → i = j
  stored : ∀ e ∈ saved, Awaited u s e.id ∨ imageAt u e.id s.database = e.record
  complete : ∀ key, imageAt u key s.database ≠ [] → key ∈ saved.map SavedImage.id

/-- Every key that is about to be shown or has been shown, and every key that is about to be
removed, is the key of a record that has been written. -/
structure Shown (u : UserID) (s : Cloud) : Prop where
  removed : ∀ id key, s.inFlight id = some (.imageRemove u key) → Past u s key
  queued : ∀ id queue, s.inFlight id = some (.images u queue) → ∀ e ∈ queue, Past u s e.1
  delivered : ∀ userImage, Callback.image u userImage ∈ s.callbacks →
    ∀ key ∈ userImage.id, Past u s key

/-- The step in flight is one of the call. -/
def Pursues (c : Call) : Task → Prop
  | .putData v path data success => c.task = some (.putData v path data success)
  | .downloadURL v path success => ∃ data, c.task = some (.putData v path data success)
  | .imageRemove v key => c.task = some (.imageRemove v key)
  | _ => True

/-- What a step does to the list, without its call. -/
def Task.edit (u : UserID) (s : Cloud) (saved : List SavedImage) : Task → List SavedImage
  | .downloadURL v path (.record text name) =>
    if v = u then
      saved ++ [{ id := s.firebase.autoId s.created
                  link := s.firebase.downloadURL path
                  text := text
                  name := name }]
    else saved
  | .imageRemove v key => if v = u then saved.filter fun e ↦ e.id ≠ key else saved
  | _ => saved

/-- **The steps of a call edit the list as the call says.** -/
theorem Album.edit_eq {u : UserID} {s : Album} {c : Call} {t : Task} (h : Pursues c t) :
    s.edit u (some c) (some t) = t.edit u s.cloud s.saved := by
  cases t
  case downloadURL v path success =>
    obtain ⟨data, hc⟩ := h
    cases c <;> simp only [Call.task, Option.some.injEq, Task.putData.injEq, reduceCtorEq,
      Option.map_eq_some_iff, and_false, exists_false] at hc
    case addNew w image text name now =>
      obtain ⟨rfl, rfl, -, rfl⟩ := hc
      rfl
    case updateProfileImage w image now =>
      obtain ⟨-, -, -, rfl⟩ := hc
      rfl
  case imageRemove v key =>
    cases c <;> simp only [Pursues, Call.task, Option.some.injEq, reduceCtorEq,
      Option.map_eq_some_iff, Task.imageRemove.injEq] at h
    case deleteUserImage w userImage =>
      obtain ⟨key', hkey, rfl, rfl⟩ := h
      simp [Album.edit, Task.edit, hkey]
  all_goals cases c <;> rfl

/-! ## One step -/

section Step

variable {u : UserID} {s : Cloud} {saved : List SavedImage} {id : ℕ} {t : Task}

theorem Made.perform {key : String} (h : Made s key) (id : ℕ) (t : Task) :
    Made (s.perform id t) key := by
  obtain ⟨n, hn, rfl⟩ := h
  exact ⟨n, hn.trans_le (created_perform id t), rfl⟩

/-- The key that is made next has not been made yet. -/
theorem Firebase.Ascending.not_made (h : s.firebase.Ascending) :
    ¬Made s (s.firebase.autoId s.created) := by
  rintro ⟨n, hn, he⟩
  exact absurd (h.increasing.injective he) (Nat.ne_of_gt hn)

/-- **A key that is past stays past.** -/
theorem Past.perform {key : String} (h : Past u s key) (ha : s.firebase.Ascending) (id : ℕ)
    (t : Task) : Past u (s.perform id t) key := by
  refine ⟨h.1.perform id t, ?_⟩
  rintro ⟨j, link, text, name, hj⟩
  rcases imageWrite_perform hj with ⟨-, path, -, rfl, -⟩ | ⟨-, hj⟩
  · exact ha.not_made h.1
  · exact h.2 ⟨j, link, text, name, hj⟩

/-- A record that is there has been written. -/
theorem Listed.past (h : Listed u s saved) {key : String}
    (hkey : imageAt u key s.database ≠ []) : Past u s key := by
  obtain ⟨e, he, rfl⟩ := List.mem_map.mp (h.complete key hkey)
  refine ⟨h.made e he, ?_⟩
  rintro ⟨id, link, text, name, hid⟩
  exact hkey (h.written id _ _ _ _ hid).2

/-- The entries after a step: those that are not removed, and the one that is added. -/
theorem mem_edit {e : SavedImage} :
    e ∈ t.edit u s saved ↔ (e ∈ saved ∧ ∀ key, t = .imageRemove u key → e.id ≠ key) ∨
      ∃ path text name, t = .downloadURL u path (.record text name) ∧
        e = { id := s.firebase.autoId s.created, link := s.firebase.downloadURL path
              text := text, name := name } := by
  cases t <;> try simp [Task.edit]
  case downloadURL v path success =>
    cases success <;> simp only [reduceCtorEq, and_false, false_and, exists_false, or_false]
    case record text name =>
      by_cases hv : v = u
      · simp [hv]
      · simp [hv]
  case imageRemove v key =>
    by_cases hv : v = u
    · simp [hv]
    · simp [hv]

/-- The list stays in key order: the key of a new entry is later than all of them. -/
theorem Listed.sorted_edit (h : Listed u s saved) (t : Task) :
    ((t.edit u s saved).map SavedImage.id).Pairwise (· < ·) := by
  cases t <;> try exact h.sorted
  case downloadURL v path success =>
    cases success
    case profileUrl => exact h.sorted
    rw [Task.edit]
    split
    · rw [List.map_append, List.pairwise_append]
      refine ⟨h.sorted, List.pairwise_singleton _ _, fun key hkey key' hkey' ↦ ?_⟩
      obtain ⟨e, he, rfl⟩ := List.mem_map.mp hkey
      obtain rfl := List.mem_singleton.mp hkey'
      obtain ⟨n, hn, hid⟩ := h.made e he
      rw [hid]
      exact h.ascending.increasing hn
    · exact h.sorted
  case imageRemove v key =>
    rw [Task.edit]
    split
    · exact h.sorted.sublist (List.filter_sublist.map _)
    · exact h.sorted

/-- Two entries with one key are one entry. -/
theorem Listed.eq_of_id (h : Listed u s saved) {e e' : SavedImage} (he : e ∈ saved)
    (he' : e' ∈ saved) (hid : e.id = e'.id) : e = e' :=
  List.inj_on_of_nodup_map (h.sorted.imp ne_of_lt) he he' hid

theorem SavedImage.record_ne_nil (e : SavedImage) : e.record ≠ [] := List.cons_ne_nil _ _

/-- The steps `u`'s list is kept by: `setupUser` does not write for `u`, and a record that is
removed has been written. -/
structure KeepsList (u : UserID) (s : Cloud) (t : Task) : Prop where
  setup : ∀ user, t = .setupWrite user → user.Key ≠ u
  removed : ∀ key, t = .imageRemove u key → Past u s key

theorem KeepsList.imageAt_write (hk : KeepsList u s t) (h : Listed u s saved) (key : String) :
    (∃ link text name, t = .imageWrite u key link text name ∧
      imageAt u key (t.write s.database) = imageRecord link text name) ∨
    (t = .imageRemove u key ∧ imageAt u key (t.write s.database) = []) ∨
    ((∀ link text name, t ≠ .imageWrite u key link text name) ∧ t ≠ .imageRemove u key ∧
      imageAt u key (t.write s.database) = imageAt u key s.database) := by
  refine LandCap.imageAt_write hk.setup (fun key' ht ↦ ?_) key s.database
  obtain ⟨n, -, rfl⟩ := (hk.removed key' ht).1
  exact h.ascending.plain n

/-- What is about to be written is in the list, and is not there yet. -/
theorem Listed.written_perform (h : Listed u s saved) (hid : s.inFlight id = some t)
    (hk : KeepsList u s t) {j : ℕ} {key link text name : String}
    (hj : (s.perform id t).inFlight j = some (.imageWrite u key link text name)) :
    { id := key, link := link, text := text, name := name } ∈ t.edit u s saved ∧
      imageAt u key (t.write s.database) = [] := by
  rcases imageWrite_perform hj with ⟨-, path, rfl, rfl, rfl⟩ | ⟨hne, hbefore⟩
  · -- the key has just been made, so there is no record under it
    refine ⟨mem_edit.mpr (Or.inr ⟨path, text, name, rfl, rfl⟩), ?_⟩
    by_contra hnil
    exact h.ascending.not_made (h.past hnil).1
  · obtain ⟨hmem, hnil⟩ := h.written j _ _ _ _ hbefore
    refine ⟨mem_edit.mpr (Or.inl ⟨hmem, ?_⟩), ?_⟩
    · rintro key' ht rfl
      exact (hk.removed key ht).2 ⟨j, link, text, name, hbefore⟩
    · rcases hk.imageAt_write h key with ⟨link', text', name', rfl, -⟩ | ⟨-, hgone⟩ | ⟨-, -, hsame⟩
      · exact absurd (h.single _ _ _ _ _ _ _ _ _ hbefore hid) hne
      · exact hgone
      · exact hsame.trans hnil

/-- An entry has its record, or is about to get it. -/
theorem Listed.stored_perform (h : Listed u s saved) (hid : s.inFlight id = some t)
    (hk : KeepsList u s t) {e : SavedImage} (he : e ∈ t.edit u s saved) :
    Awaited u (s.perform id t) e.id ∨ imageAt u e.id (t.write s.database) = e.record := by
  rcases mem_edit.mp he with ⟨he, hkept⟩ | ⟨path, text, name, rfl, rfl⟩
  · rcases h.stored e he with ⟨j, link, text, name, hj⟩ | hrecord
    · rcases eq_or_ne j id with rfl | hne
      · -- this step writes the record
        obtain rfl : t = .imageWrite u e.id link text name := Option.some.inj (hid.symm.trans hj)
        have hentry := h.eq_of_id he (h.written j _ _ _ _ hj).1 rfl
        rw [imageAt_imageWrite, if_pos rfl, hentry]
        exact Or.inr rfl
      · have hsame : (s.perform id t).inFlight j = s.inFlight j :=
          Cloud.perform_inFlight_eq t hne (by simp [hj])
        exact Or.inl ⟨j, link, text, name, hsame.trans hj⟩
    · rcases hk.imageAt_write h e.id with ⟨link, text, name, rfl, -⟩ | ⟨ht, -⟩ | ⟨-, -, hsame⟩
      · exact absurd (hrecord.symm.trans (h.written id _ _ _ _ hid).2) e.record_ne_nil
      · exact absurd rfl (hkept e.id ht)
      · exact Or.inr (hsame.trans hrecord)
  · exact Or.inl ⟨id, _, text, name, s.perform_inFlight_self id _⟩

/-- There is no record but those of the list. -/
theorem Listed.complete_perform (h : Listed u s saved) (hid : s.inFlight id = some t)
    (hk : KeepsList u s t) {key : String} (hkey : imageAt u key (t.write s.database) ≠ []) :
    key ∈ (t.edit u s saved).map SavedImage.id := by
  rcases hk.imageAt_write h key with ⟨link, text, name, rfl, -⟩ | ⟨-, hnil⟩ | ⟨-, ht, hsame⟩
  · have hmem := (h.written id _ _ _ _ hid).1
    exact List.mem_map.mpr ⟨_, mem_edit.mpr (Or.inl ⟨hmem, by simp⟩), rfl⟩
  · exact absurd hnil hkey
  · obtain ⟨e, he, rfl⟩ := List.mem_map.mp (h.complete key (hsame ▸ hkey))
    refine List.mem_map.mpr ⟨e, mem_edit.mpr (Or.inl ⟨he, ?_⟩), rfl⟩
    rintro key' rfl rfl
    exact ht rfl

/-- **The list follows a step.** -/
theorem listed_perform (h : Listed u s saved) (hid : s.inFlight id = some t)
    (hk : KeepsList u s t) : Listed u (s.perform id t) (t.edit u s saved) where
  ascending := h.ascending
  made e he := by
    rcases mem_edit.mp he with ⟨he, -⟩ | ⟨path, text, name, rfl, rfl⟩
    · exact (h.made e he).perform id t
    · exact ⟨s.created, Nat.lt_succ_self _, rfl⟩
  sorted := h.sorted_edit t
  written j key link text name hj := h.written_perform hid hk hj
  single i j key link text name link' text' name' hi hj := by
    refine single_perform h.single (fun k key link text name hk hnew ↦ ?_) hi hj
    exact h.ascending.not_made (hnew ▸ h.made _ (h.written k _ _ _ _ hk).1)
  stored e he := h.stored_perform hid hk he
  complete key hkey := h.complete_perform hid hk hkey

/-- An observer is told of the children there are. -/
theorem mem_children {node : Database} {e : String × Database} (h : e ∈ children node) :
    snapshot [e.1] node ≠ [] := by
  obtain ⟨key, hkey, rfl⟩ := List.mem_map.mp h
  exact mem_childKeys.mp (List.mem_mergeSort.mp hkey)

theorem imageAt_ne_nil_of_mem_children {database : Database} {e : String × Database}
    (h : e ∈ children (snapshot (imagesRef u) database)) : imageAt u e.1 database ≠ [] := by
  rw [imageAt, ← snapshot_snapshot]
  exact mem_children h

theorem notify_eq_images {old new : Database} {queue : List (String × Database)}
    (h : t.notify old new = .images u queue) :
    ∃ queue₀, t = .images u queue₀ ∧ queue = queue₀ ++ childAdded u old new := by
  cases t <;> simp only [Task.notify, reduceCtorEq, Task.images.injEq] at h
  case images v queue₀ =>
    obtain ⟨rfl, rfl⟩ := h
    exact ⟨queue₀, rfl, rfl⟩

/-- An image comes from the head of an observer's queue, and carries its key. -/
theorem image_callback {userImage : UserImage}
    (h : Callback.image u userImage ∈ s.callback t) :
    ∃ key value queue, t = .images u ((key, value) :: queue) ∧ userImage.id = some key := by
  cases t <;> try simp [Cloud.callback] at h
  case limitRead v => split at h <;> simp at h
  case downloadURL v path success => cases success <;> simp at h
  case images v queue =>
    cases queue with
    | nil => simp at h
    | cons e queue =>
      obtain ⟨image, himage, hcallback⟩ := Option.map_eq_some_iff.mp (Option.mem_toList.mp h)
      obtain ⟨rfl, rfl⟩ := Callback.image.inj hcallback
      obtain ⟨_, -, rfl⟩ := Option.map_eq_some_iff.mp himage
      exact ⟨e.1, e.2, queue, rfl, rfl⟩

/-- **Only keys that are past are shown**, after a step as before it. -/
theorem shown_perform (hs : Shown u s) (h : Listed u s saved) (hid : s.inFlight id = some t)
    (hk : KeepsList u s t) : Shown u (s.perform id t) where
  removed j key hj := by
    rcases Cloud.perform_inFlight hj (by simp) with ⟨-, hf⟩ | ⟨-, hj⟩
    · nomatch Cloud.followUp_cases hf
    · exact (hs.removed j key hj).perform h.ascending id t
  queued j queue hj e he := by
    rcases eq_or_ne j id with rfl | hne
    · rw [Cloud.perform_inFlight_self] at hj
      cases Cloud.followUp_cases hj with
      | images => exact (h.past (imageAt_ne_nil_of_mem_children he)).perform h.ascending j _
      | next _ queue₀ =>
        exact (hs.queued j queue₀ hid e (List.mem_of_mem_tail he)).perform h.ascending j _
    · rw [s.perform_inFlight_of_ne t hne] at hj
      obtain ⟨t₀, ht₀, hnotify⟩ := Option.map_eq_some_iff.mp hj
      obtain ⟨queue₀, rfl, rfl⟩ := notify_eq_images hnotify
      rcases List.mem_append.mp he with he | he
      · exact (hs.queued j queue₀ ht₀ e he).perform h.ascending id t
      · -- what is added is there after the step
        exact (listed_perform h hid hk).past
          (imageAt_ne_nil_of_mem_children (List.mem_of_mem_filter he))
  delivered userImage himage key hkey := by
    rcases List.mem_append.mp himage with himage | himage
    · obtain ⟨key', value, queue, rfl, hid'⟩ := image_callback himage
      obtain rfl : key' = key := Option.some.inj (hid'.symm.trans hkey)
      exact (hs.queued id _ hid _ List.mem_cons_self).perform h.ascending id _
    · exact (hs.delivered userImage himage key hkey).perform h.ascending id t

/-- The first step of a call, or none, takes the place of a step that writes no record. -/
theorem listed_update (h : Listed u s saved) (id : ℕ) {t : Option Task}
    (hid : ∀ key link text name, s.inFlight id ≠ some (.imageWrite u key link text name))
    (ht : ∀ key link text name, t ≠ some (.imageWrite u key link text name)) :
    Listed u { s with inFlight := Function.update s.inFlight id t } saved := by
  have hold : ∀ {j key link text name}, Function.update s.inFlight id t j
      = some (.imageWrite u key link text name) →
      s.inFlight j = some (.imageWrite u key link text name) := by
    intro j key link text name hj
    exact (update_eq_some_of_ne hj (ht key link text name)).2
  refine ⟨h.ascending, h.made, h.sorted, fun j key link text name hj ↦
    h.written j _ _ _ _ (hold hj), fun i j key link text name link' text' name' hi hj ↦
    h.single i j _ _ _ _ _ _ _ (hold hi) (hold hj), fun e he ↦ ?_, h.complete⟩
  refine (h.stored e he).imp_left ?_
  rintro ⟨j, link, text, name, hj⟩
  have hne : j ≠ id := by
    rintro rfl
    exact hid _ _ _ _ hj
  exact ⟨j, link, text, name, (Function.update_of_ne hne _ _).trans hj⟩

theorem shown_update (hs : Shown u s) (id : ℕ) {t : Option Task}
    (ht : ∀ key link text name, t ≠ some (.imageWrite u key link text name))
    (hremove : ∀ key, t = some (.imageRemove u key) → Past u s key)
    (hqueue : ∀ queue, t ≠ some (.images u queue)) :
    Shown u { s with inFlight := Function.update s.inFlight id t } := by
  have hpast : ∀ {key}, Past u s key →
      Past u { s with inFlight := Function.update s.inFlight id t } key := by
    refine fun h ↦ ⟨h.1, ?_⟩
    rintro ⟨j, link, text, name, hj⟩
    exact h.2 ⟨j, link, text, name, (update_eq_some_of_ne hj (ht _ _ _ _)).2⟩
  refine ⟨fun j key hj ↦ hpast ?_, fun j queue hj e he ↦ hpast ?_, fun userImage himage key hkey ↦
    hpast (hs.delivered userImage himage key hkey)⟩
  · rcases update_eq_some hj with ⟨-, hj⟩ | ⟨-, hj⟩
    · exact hremove key hj
    · exact hs.removed j key hj
  · exact hs.queued j queue (update_eq_some_of_ne hj (hqueue queue)).2 e he

/-! ## The steps of a call -/

theorem pursues_task {c : Call} (h : c.task = some t) : Pursues c t := by
  cases t
  case putData => exact h
  case downloadURL => cases c <;> simp [Call.task] at h
  case imageRemove => exact h
  all_goals trivial

theorem Pursues.followUp {c : Call} {t' : Task} (h : Pursues c t) (hf : s.FollowUp t t') :
    Pursues c t' := by
  cases hf with
  | downloadURL => exact ⟨_, h⟩
  | setupWrite | limitWrite | imageWrite | profileUrlWrite | images | next => trivial

theorem Pursues.notify {c : Call} (h : Pursues c t) (old new : Database) :
    Pursues c (t.notify old new) := by
  cases t <;> exact h

end Step

/-- Every step in flight is one of its call, and the list is the collection. -/
structure Album.Faithful (u : UserID) (s : Album) : Prop where
  pursues : ∀ id t, s.cloud.inFlight id = some t → ∃ c, s.calls id = some c ∧ Pursues c t
  listed : Listed u s.cloud s.saved
  shown : Shown u s.cloud

theorem Album.step_eq_some {u : UserID} {s s' : Album} {a : Action}
    (h : s.step u a = some s') : s.cloud.step a = some s'.cloud := by
  obtain ⟨cloud, hcloud, rfl⟩ := Option.map_eq_some_iff.mp h
  cases a <;> exact hcloud

theorem Album.step_call {u : UserID} {s s' : Album} {id : ℕ} {c : Call}
    (h : s.step u (.call id c) = some s') :
    s.cloud.inFlight id = none ∧
      s' = { s with
        cloud := { s.cloud with inFlight := Function.update s.cloud.inFlight id c.task }
        calls := Function.update s.calls id (some c) } := by
  obtain ⟨cloud, hcloud, rfl⟩ := Option.map_eq_some_iff.mp h
  obtain ⟨hfree, rfl⟩ := Cloud.step_call hcloud
  exact ⟨hfree, rfl⟩

theorem Album.step_deliver {u : UserID} {s s' : Album} {id : ℕ}
    (h : s.step u (.deliver id) = some s') : ∃ t, s.cloud.inFlight id = some t ∧
      s' = { s with cloud := s.cloud.perform id t, saved := s.edit u (s.calls id) (some t) } := by
  obtain ⟨cloud, hcloud, rfl⟩ := Option.map_eq_some_iff.mp h
  obtain ⟨t, hid, rfl⟩ := Cloud.step_deliver hcloud
  exact ⟨t, hid, hid ▸ rfl⟩

theorem Album.step_fail {u : UserID} {s s' : Album} {id : ℕ}
    (h : s.step u (.fail id) = some s') :
    s' = { s with
      cloud := { s.cloud with inFlight := Function.update s.cloud.inFlight id none } } := by
  obtain ⟨cloud, hcloud, rfl⟩ := Option.map_eq_some_iff.mp h
  obtain rfl := Cloud.step_fail hcloud
  rfl

theorem faithful_call {u : UserID} {s s' : Album} {id : ℕ} {c : Call} (h : s.Faithful u)
    (ho : s.Orderly u (.call id c)) (hstep : s.step u (.call id c) = some s') :
    s'.Faithful u := by
  obtain ⟨hfree, rfl⟩ := Album.step_call hstep
  have hwrite : ∀ key link text name, c.task ≠ some (.imageWrite u key link text name) := by
    cases c <;> simp [Call.task]
  refine ⟨fun j t hj ↦ ?_, listed_update h.listed id (by simp [hfree]) hwrite,
    shown_update h.shown id hwrite (fun key hkey ↦ ?_) ?_⟩
  · rcases update_eq_some hj with ⟨rfl, hfirst⟩ | ⟨hne, hold⟩
    · exact ⟨c, Function.update_self .., pursues_task hfirst⟩
    · obtain ⟨c', hc', hp⟩ := h.pursues j t hold
      exact ⟨c', (Function.update_of_ne hne _ _).trans hc', hp⟩
  · -- the image has been delivered, so its key is past
    cases c <;> simp [Call.task] at hkey
    case deleteUserImage v userImage =>
      obtain ⟨hid, rfl⟩ := hkey
      exact h.shown.delivered userImage (ho rfl) key hid
  · cases c <;> simp [Call.task]

theorem faithful_deliver {u : UserID} {s s' : Album} {id : ℕ} (h : s.Faithful u)
    (ho : s.Orderly u (.deliver id)) (hstep : s.step u (.deliver id) = some s') :
    s'.Faithful u := by
  obtain ⟨t, hid, rfl⟩ := Album.step_deliver hstep
  obtain ⟨c, hc, hp⟩ := h.pursues id t hid
  have hk : KeepsList u s.cloud t :=
    ⟨fun user ht he ↦ ho t hid (ht ▸ he), fun key ht ↦ h.shown.removed id key (ht ▸ hid)⟩
  refine ⟨fun j t' hj ↦ ?_, ?_, shown_perform h.shown h.listed hid hk⟩
  · rcases eq_or_ne j id with rfl | hne
    · rw [Cloud.perform_inFlight_self] at hj
      exact ⟨c, hc, hp.followUp (Cloud.followUp_cases hj)⟩
    · rw [Cloud.perform_inFlight_of_ne _ _ hne] at hj
      obtain ⟨t₀, ht₀, rfl⟩ := Option.map_eq_some_iff.mp hj
      obtain ⟨c', hc', hp'⟩ := h.pursues j t₀ ht₀
      exact ⟨c', hc', hp'.notify _ _⟩
  · rw [hc, Album.edit_eq hp]
    exact listed_perform h.listed hid hk

theorem faithful_fail {u : UserID} {s s' : Album} {id : ℕ} (h : s.Faithful u)
    (ho : s.Orderly u (.fail id)) (hstep : s.step u (.fail id) = some s') : s'.Faithful u := by
  obtain rfl := Album.step_fail hstep
  refine ⟨fun j t hj ↦ ?_, listed_update h.listed id (fun key link text name hid ↦ ho _ hid rfl)
    (by simp),
    shown_update h.shown id (by simp) (by simp) (by simp)⟩
  exact h.pursues j t (update_eq_some_of_ne hj (by simp)).2

/-- **The step lemma.** -/
theorem faithful_step {u : UserID} {s s' : Album} {a : Action} (h : s.Faithful u)
    (ho : s.Orderly u a) (hstep : s.step u a = some s') : s'.Faithful u := by
  cases a with
  | call id c => exact faithful_call h ho hstep
  | deliver id => exact faithful_deliver h ho hstep
  | fail id => exact faithful_fail h ho hstep

/-- Nothing is saved and nothing is asked, so the empty list is the collection. -/
theorem faithful_of {u : UserID} {s : Cloud} (hs : s.Idle) (ha : s.firebase.Ascending)
    (hempty : snapshot (imagesRef u) s.database = []) : (Album.of s).Faithful u := by
  have hflight : ∀ id t, (Album.of s).cloud.inFlight id ≠ some t := fun id t ↦ by
    simp [Album.of, hs.inFlight]
  have hnone : ∀ key, imageAt u key (Album.of s).cloud.database = [] := fun key ↦ by
    rw [Album.of, imageAt, ← snapshot_snapshot, hempty]
    rfl
  exact {
    pursues := fun id t hid ↦ absurd hid (hflight id t)
    listed := {
      ascending := ha
      made := by simp [Album.of]
      sorted := by simp [Album.of]
      written := fun id _ _ _ _ hid ↦ absurd hid (hflight id _)
      single := fun i _ _ _ _ _ _ _ _ hi _ ↦ absurd hi (hflight i _)
      stored := by simp [Album.of]
      complete := fun key hkey ↦ absurd (hnone key) hkey }
    shown := {
      removed := fun id _ hid ↦ absurd hid (hflight id _)
      queued := fun id _ hid ↦ absurd hid (hflight id _)
      delivered := by simp [Album.of, hs.callbacks] } }

/-! ## A new observer -/

/-- The children of a node, from a list of their keys in order. -/
theorem children_eq {node : Database} {keys : List String} (hsorted : keys.Pairwise (· < ·))
    (hkeys : ∀ key, key ∈ keys ↔ snapshot [key] node ≠ []) :
    children node = keys.map fun key ↦ (key, snapshot [key] node) := by
  have hperm : (childKeys node).Perm keys :=
    (List.perm_ext_iff_of_nodup (nodup_childKeys node) (hsorted.imp ne_of_lt)).mpr fun key ↦
      mem_childKeys.trans (hkeys key).symm
  have hmerge : (childKeys node).mergeSort (· ≤ ·) = keys :=
    ((List.mergeSort_perm _ _).trans hperm).eq_of_pairwise'
      (List.pairwise_mergeSort' (· ≤ ·) _) (hsorted.imp le_of_lt)
  rw [children, hmerge]

/-- **When no write of a record is in flight, the list is what a new observer is told.** -/
theorem Listed.children_eq {u : UserID} {s : Cloud} {saved : List SavedImage}
    (h : Listed u s saved) (hquiet : ∀ key, ¬Awaited u s key) :
    children (snapshot (imagesRef u) s.database) = saved.map fun e ↦ (e.id, e.record) := by
  have hrecord : ∀ e ∈ saved, imageAt u e.id s.database = e.record := fun e he ↦
    (h.stored e he).resolve_left (hquiet e.id)
  rw [LandCap.children_eq h.sorted fun key ↦ ?_, List.map_map]
  · refine List.map_congr_left fun e he ↦ ?_
    rw [Function.comp_apply, snapshot_snapshot]
    exact congrArg _ (hrecord e he)
  · rw [snapshot_snapshot]
    refine ⟨fun hkey ↦ ?_, h.complete key⟩
    obtain ⟨e, he, rfl⟩ := List.mem_map.mp hkey
    exact (hrecord e he).trans_ne e.record_ne_nil

/-- A new observer is registered under the name `id`, and receives `n` events. -/
def observing (u : UserID) (id n : ℕ) : List Action :=
  .call id (.getImages u) :: .deliver id :: List.replicate n (.deliver id)

/-- An observer calls back for one entry after another. -/
theorem run_observer {u : UserID} {id : ℕ} (n : ℕ) {s : Cloud} {saved : List SavedImage}
    (hid : s.inFlight id = some (.images u (saved.map fun e ↦ (e.id, e.record)))) :
    ∃ t, run Cloud.step s (List.replicate n (.deliver id)) = some t ∧
      t.callbacks = ((saved.take n).map fun e ↦ Callback.image u e.userImage).reverse
        ++ s.callbacks := by
  induction n generalizing s saved with
  | zero => exact ⟨s, rfl, by simp⟩
  | succ n ih =>
    have hnext : (s.perform id (.images u (saved.map fun e ↦ (e.id, e.record)))).inFlight id
        = some (.images u (saved.tail.map fun e ↦ (e.id, e.record))) := by
      rw [Cloud.perform_inFlight_self, Cloud.followUp, List.map_tail]
    obtain ⟨t, hrun, hcallbacks⟩ := ih hnext
    refine ⟨t, run_cons_eq_some.mpr ⟨_, Cloud.step_deliver_of hid, hrun⟩, ?_⟩
    rw [hcallbacks, Cloud.perform_callbacks]
    cases saved with
    | nil => simp [Cloud.callback]
    | cons e saved => simp [Cloud.callback, SavedImage.ofSnapshot_record]

/-! ## The collection behaves like a list -/

/-- **Every run of the cloud edits the list.** -/
theorem run_cloud (u : UserID) (s : Album) (as : List Action) :
    run Cloud.step s.cloud as = (run (Album.step u) s as).map Album.cloud := by
  induction as generalizing s with
  | nil => rfl
  | cons a as ih =>
    rw [run_cons, run_cons]
    cases h : s.step u a with
    | none => rw [Option.map_eq_none_iff.mp h]; rfl
    | some s' => rw [Album.step_eq_some h]; exact ih s'

/-- A new observer calls back for the whole list. -/
theorem Album.Faithful.observe {u : UserID} {s : Album} (h : s.Faithful u)
    (hquiet : ∀ key, ¬Awaited u s.cloud key) {id : ℕ} (hfree : s.cloud.inFlight id = none) {n : ℕ}
    (hn : s.saved.length ≤ n) :
    ∃ t, run Cloud.step s.cloud (observing u id n) = some t ∧
      t.callbacks = (s.saved.map fun e ↦ Callback.image u e.userImage).reverse
        ++ s.cloud.callbacks := by
  let called : Cloud :=
    { s.cloud with inFlight := Function.update s.cloud.inFlight id (some (.imagesRead u)) }
  have hcall : s.cloud.step (.call id (.getImages u)) = some called := if_pos hfree
  have hread : called.inFlight id = some (.imagesRead u) := Function.update_self ..
  have hqueue : (called.perform id (.imagesRead u)).inFlight id
      = some (.images u (s.saved.map fun e ↦ (e.id, e.record))) := by
    rw [Cloud.perform_inFlight_self, ← h.listed.children_eq hquiet]
    rfl
  obtain ⟨t, hrun, hcallbacks⟩ := run_observer n hqueue
  refine ⟨t, run_cons_eq_some.mpr ⟨called, hcall, run_cons_eq_some.mpr
    ⟨_, Cloud.step_deliver_of hread, hrun⟩⟩, ?_⟩
  rw [hcallbacks, List.take_of_length_le hn]
  rfl

/-- A deletion takes away the record of its image. -/
theorem Album.Faithful.delete {u : UserID} {s : Album} (h : s.Faithful u) {id : ℕ}
    (hfree : s.cloud.inFlight id = none) {e : SavedImage} (he : e ∈ s.saved) :
    ∃ t, run Cloud.step s.cloud [.call id (.deleteUserImage u e.userImage), .deliver id] = some t ∧
      ∀ v key, imageAt v key t.database
        = if v = u ∧ key = e.id then [] else imageAt v key s.cloud.database := by
  let called : Cloud :=
    { s.cloud with inFlight := Function.update s.cloud.inFlight id (some (.imageRemove u e.id)) }
  have hcall : s.cloud.step (.call id (.deleteUserImage u e.userImage)) = some called :=
    if_pos hfree
  have hremove : called.inFlight id = some (.imageRemove u e.id) := Function.update_self ..
  refine ⟨called.perform id (.imageRemove u e.id), run_cons_eq_some.mpr ⟨called, hcall,
    run_cons_eq_some.mpr ⟨_, Cloud.step_deliver_of hremove, rfl⟩⟩, fun v key ↦ ?_⟩
  rw [Cloud.perform_database]
  by_cases hv : v = u
  · subst hv
    obtain ⟨n, -, hkey⟩ := h.listed.made e he
    have hplain : components e.id = [e.id] := hkey ▸ h.listed.ascending.plain n
    simpa using imageAt_imageRemove hplain v s.cloud.database key
  · rw [if_neg fun hand ↦ hv hand.1, imageAt, imageAt, imagesRef_eq, List.append_assoc,
      ← snapshot_snapshot (userRef v), ← snapshot_snapshot (userRef v),
      Task.snapshot_write_of_user_ne (Ne.symm hv)]

/-- **The saved images behave like a list.**  Take any run in which the records of `u` that have
got their keys are written, deletions are given images that have been delivered, and `setupUser`
does not write for `u`.  A new observer is then told exactly the entries that have been added and
not deleted, in the order in which they have been added, and of nothing after them; and a deletion
that is given one of them removes its record, and no other record of anyone. -/
theorem saved_images_are_list {u : UserID} {s₀ : Cloud} {s : Album} {as : List Action}
    (hs : s₀.Idle) (hfirebase : s₀.firebase.Ascending)
    (hempty : snapshot (imagesRef u) s₀.database = [])
    (hrun : run (Album.step u) (.of s₀) as = some s)
    (horderly : Meets (Album.step u) (Album.Orderly u) (.of s₀) as)
    (hquiet : ∀ key, ¬Awaited u s.cloud key) {id : ℕ} (hfree : s.cloud.inFlight id = none) :
    (∀ n, s.saved.length ≤ n → ∃ t, run Cloud.step s.cloud (observing u id n) = some t ∧
      t.callbacks = (s.saved.map fun e ↦ Callback.image u e.userImage).reverse
        ++ s.cloud.callbacks) ∧
    ∀ e ∈ s.saved, ∃ t,
      run Cloud.step s.cloud [.call id (.deleteUserImage u e.userImage), .deliver id] = some t ∧
        ∀ v key, imageAt v key t.database
          = if v = u ∧ key = e.id then [] else imageAt v key s.cloud.database := by
  have hfaithful : s.Faithful u :=
    run_invariant (fun _ _ _ h ho hstep ↦ faithful_step h ho hstep)
      (faithful_of hs hfirebase hempty) horderly hrun
  exact ⟨fun n hn ↦ hfaithful.observe hquiet hfree hn, fun e he ↦ hfaithful.delete hfree he⟩

/-- A server whose keys grow longer. -/
def Firebase.growing : Firebase where
  autoId n := String.ofList ('-' :: List.replicate n 'z')
  downloadURL path := "https://storage/" ++ String.intercalate "/" path

theorem Firebase.ascending_growing : Firebase.growing.Ascending where
  increasing := by
    refine strictMono_nat_of_lt_succ fun n ↦ ?_
    rw [String.lt_iff_toList_lt]
    simp only [Firebase.growing, String.toList_ofList]
    induction n with
    | zero => decide
    | succ n ih =>
      rw [List.cons_lt_cons_iff] at ih ⊢
      refine Or.inr ⟨rfl, ?_⟩
      rw [List.replicate_succ, List.replicate_succ (n := n + 1), List.cons_lt_cons_iff]
      exact Or.inr ⟨rfl, by simpa using ih⟩
  plain n := components_userID ⟨Firebase.growing.autoId n, by simp [Firebase.growing],
    by simp [Firebase.growing]⟩

/-- In a run from an idle cloud only the names it uses have a step in flight. -/
theorem inFlight_of_unused {s t : Cloud} {as : List Action} {id : ℕ}
    (hrun : run Cloud.step s as = some t) (hs : s.inFlight id = none)
    (hid : id ∉ as.map Action.id) : t.inFlight id = none := by
  induction as generalizing s with
  | nil => exact Option.some.inj hrun ▸ hs
  | cons a as ih =>
    obtain ⟨s', hstep, hrest⟩ := run_cons_eq_some.mp hrun
    rw [List.map_cons, List.mem_cons, not_or] at hid
    exact ih hrest (Cloud.step_inFlight_of_ne (Ne.symm hid.1) (by simp) hstep hs) hid.2

theorem not_awaited_of_used {u : UserID} {s₀ : Cloud} {s : Album} {as : List Action}
    (hs : s₀.Idle) (hrun : run (Album.step u) (.of s₀) as = some s)
    (hused : ∀ id ∈ as.map Action.id, ∀ t ∈ s.cloud.inFlight id, ¬t.AddsRecord u) (key : String) :
    ¬Awaited u s.cloud key := by
  rintro ⟨id, link, text, name, hid⟩
  have hcloud : run Cloud.step s₀ as = some s.cloud := by
    rw [show s₀ = (Album.of s₀).cloud from rfl, run_cloud u, hrun, Option.map_some]
  by_cases hmem : id ∈ as.map Action.id
  · exact hused id hmem _ hid rfl
  · rw [inFlight_of_unused hcloud (hs.inFlight id) hmem] at hid
    exact absurd hid (by simp)

/-- The first picture. -/
def tower : SavedImage where
  id := "-"
  link := Firebase.growing.downloadURL (uploadPath alice (.record "a tower" "Tower") halfPastOne)
  text := "a tower"
  name := "Tower"

/-- The second picture. -/
def bridge : SavedImage where
  id := "-z"
  link := Firebase.growing.downloadURL (uploadPath alice (.record "a bridge" "Bridge") aMinuteLater)
  text := "a bridge"
  name := "Bridge"

/-- Two pictures are saved. -/
def savingTwo : List Action :=
  uploadSteps 0 (.addNew alice [1] tower.text tower.name halfPastOne) ++
    uploadSteps 1 (.addNew alice [2] bridge.text bridge.name aMinuteLater)

/-- An observer is told of the first picture, and it is deleted. -/
def deletingTower : List Action :=
  [.call 2 (.getImages alice), .deliver 2, .deliver 2,
    .call 0 (.deleteUserImage alice tower.userImage), .deliver 0]

/-- The first entry can be deleted once an observer has been told of it. -/
theorem orderly_deletingTower {s : Album} (h : s.Faithful alice)
    (hquiet : ∀ key, ¬Awaited alice s.cloud key) {saved : List SavedImage}
    (hsaved : s.saved = tower :: saved) :
    Meets (Album.step alice) (Album.Orderly alice) s deletingTower := by
  refine ⟨trivial, fun s₁ h₁ ↦ ?_⟩
  obtain ⟨-, rfl⟩ := Album.step_call h₁
  refine ⟨fun t ht hset ↦ ?_, fun s₂ h₂ ↦ ?_⟩
  · obtain rfl := Option.some.inj ht
    exact hset
  obtain ⟨t₁, ht₁, rfl⟩ := Album.step_deliver h₂
  obtain rfl := Option.some.inj ht₁
  refine ⟨fun t ht hset ↦ ?_, fun s₃ h₃ ↦ ?_⟩
  · obtain rfl := Option.some.inj ((Cloud.perform_inFlight_self ..).symm.trans ht)
    exact hset
  obtain ⟨t₂, ht₂, rfl⟩ := Album.step_deliver h₃
  obtain rfl := Option.some.inj ((Cloud.perform_inFlight_self ..).symm.trans ht₂)
  refine ⟨fun _ ↦ List.mem_append_left _ ?_, fun s₄ h₄ ↦ ?_⟩
  · -- the head of the queue has been called back
    show _ ∈ Cloud.callback _
      (.images alice (children (snapshot (imagesRef alice) s.cloud.database)))
    rw [h.listed.children_eq hquiet, hsaved]
    simp [Cloud.callback, SavedImage.ofSnapshot_record]
  · obtain ⟨-, rfl⟩ := Album.step_call h₄
    refine ⟨fun t ht hset ↦ ?_, fun _ _ ↦ trivial⟩
    obtain rfl := Option.some.inj ht
    exact hset

theorem saved_images_are_list_deletingTower : ∃ s t,
    run (Album.step alice) (.of (.start .growing [])) (savingTwo ++ deletingTower) = some s ∧
      s.saved = [bridge] ∧ run Cloud.step s.cloud (observing alice 3 1) = some t ∧
      t.callbacks = Callback.image alice bridge.userImage :: s.cloud.callbacks := by
  obtain ⟨s₁, h₁⟩ : ∃ s, run (Album.step alice) (.of (.start .growing [])) savingTwo = some s :=
    ⟨_, rfl⟩
  have hidle : (Cloud.start .growing []).Idle := Cloud.idle_start _ _
  have hfirst : Meets (Album.step alice) (Album.Orderly alice) (.of (.start .growing []))
      savingTwo := by decide +kernel
  have hfaithful : s₁.Faithful alice :=
    run_invariant (fun _ _ _ h ho hstep ↦ faithful_step h ho hstep)
      (faithful_of hidle Firebase.ascending_growing rfl) hfirst h₁
  have hsaved₁ : ∀ s ∈ run (Album.step alice) (.of (.start .growing [])) savingTwo,
      s.saved = [tower, bridge] := by decide +kernel
  have hquiet₁ : ∀ s ∈ run (Album.step alice) (.of (.start .growing [])) savingTwo,
      ∀ id ∈ savingTwo.map Action.id, ∀ t ∈ s.cloud.inFlight id, ¬t.AddsRecord alice := by
    decide +kernel
  obtain ⟨s, hs⟩ : ∃ s, run (Album.step alice) (.of (.start .growing []))
    (savingTwo ++ deletingTower) = some s := ⟨_, rfl⟩
  have hsaved : ∀ s ∈ run (Album.step alice) (.of (.start .growing []))
      (savingTwo ++ deletingTower), s.saved = [bridge] := by decide +kernel
  have hquiet : ∀ s ∈ run (Album.step alice) (.of (.start .growing []))
      (savingTwo ++ deletingTower), ∀ id ∈ (savingTwo ++ deletingTower).map Action.id,
      ∀ t ∈ s.cloud.inFlight id, ¬t.AddsRecord alice := by decide +kernel
  have hfree : ∀ s ∈ run (Album.step alice) (.of (.start .growing []))
      (savingTwo ++ deletingTower), s.cloud.inFlight 3 = none := by decide +kernel
  obtain ⟨hobserve, -⟩ := saved_images_are_list hidle Firebase.ascending_growing rfl hs
    (hfirst.append h₁ (orderly_deletingTower hfaithful
      (not_awaited_of_used hidle h₁ (hquiet₁ s₁ h₁)) (hsaved₁ s₁ h₁)))
    (not_awaited_of_used hidle hs (hquiet s hs)) (hfree s hs)
  obtain ⟨t, ht, hcallbacks⟩ := hobserve 1 (by rw [hsaved s hs]; exact le_refl 1)
  rw [hsaved s hs] at hcallbacks
  exact ⟨s, t, hs, hsaved s hs, ht, hcallbacks⟩

end LandCap
