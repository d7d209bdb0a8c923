import LandCap.CapDatabase.Uploads

/-!
# The objects in storage and the records that link to them

`addNew` stores an object and then writes the record that links to it; `deleteUserImage` removes a
record.  The two stores are changed in separate steps, and nothing ever removes an object: no method
of `CapDatabase` deletes from storage.  So the two get out of step.  An add whose download URL is
not to be had leaves an object without a record, and so does every deletion (`not_in_step`).

What the design does give is one half of the correspondence and an account of the other
(`objects_accounted`).  No record is without its object.  And an object that no record links to has
lost its link in one of these two ways: `Orphans` is a step that fails to look up the object's URL,
or that removes a record with that URL.

The proof follows every object until it is linked: `Accounted` says that it is linked, or that the
call that has stored it is still on its way to link it.
-/

set_option autoImplicit false

namespace LandCap

open PathTree Runs

/-! ## Records and objects -/

/-- The record under a key. -/
def imageAt (u : UserID) (key : String) (database : Database) : Database :=
  snapshot (imagesRef u ++ [key]) database

/-- The URL a record links to. -/
def linkOf (u : UserID) (key : String) (database : Database) : Option String :=
  (valueFor (imageAt u key database) "link").bind Leaf.asString

/-- The path of an object directly under `users/u`. -/
def objectRef (u : UserID) (file : String) : List String := userRef u ++ [file]

/-- There is an object at the path. -/
def HasObject (s : Cloud) (path : List String) : Prop := (s.storage path).isSome = true

instance (s : Cloud) (path : List String) : Decidable (HasObject s path) :=
  inferInstanceAs (Decidable (_ = true))

/-- Some record of `u` links to the object at the path. -/
def Linked (u : UserID) (s : Cloud) (path : List String) : Prop :=
  ∃ key, linkOf u key s.database = some (s.firebase.downloadURL path)

/-- Every record of `u` links to an object directly under `users/u`. -/
def RecordsHaveObjects (u : UserID) (s : Cloud) : Prop :=
  ∀ key, imageAt u key s.database ≠ [] → ∃ file,
    linkOf u key s.database = some (s.firebase.downloadURL (objectRef u file)) ∧
      HasObject s (objectRef u file)

/-- The objects directly under `users/u` are those the records of `u` link to. -/
structure InStep (u : UserID) (s : Cloud) : Prop where
  records : RecordsHaveObjects u s
  objects : ∀ file, HasObject s (objectRef u file) → Linked u s (objectRef u file)

/-! ## The runs -/

/-- `a` is not a call, or adds a picture of `u`, or deletes one that `getImages` has delivered: its
id is the key of a record, and keys have no slash. -/
def AddOrDelete (u : UserID) : Action → Prop
  | .call _ (.addNew v ..) => v = u
  | .call _ (.deleteUserImage v userImage) =>
    v = u ∧ ∀ id ∈ userImage.id, components id = [id]
  | .call .. => False
  | .deliver _ | .fail _ => True

/-- Only an upload or the lookup of a URL can fail. -/
def FailsAtStorage (s : Cloud) : Action → Prop
  | .fail id => ∀ t, s.inFlight id = some t →
    (∃ v path data success, t = .putData v path data success) ∨
      ∃ v path success, t = .downloadURL v path success
  | _ => True

/-- The step costs the object at the path a link: its URL cannot be looked up, or a record that
links to it is removed. -/
def Orphans (u : UserID) (path : List String) (s : Cloud) : Action → Prop
  | .fail id => ∃ v success, s.inFlight id = some (.downloadURL v path success)
  | .deliver id => ∃ key, s.inFlight id = some (.imageRemove u key) ∧
    linkOf u key s.database = some (s.firebase.downloadURL path)
  | .call .. => False

/-- `childByAutoId` makes no key twice, and none that is in use. -/
structure UniqueKeys (u : UserID) (s : Cloud) : Prop where
  injective : Function.Injective s.firebase.autoId
  unused : ∀ n, s.created ≤ n → imageAt u (s.firebase.autoId n) s.database = []

/-! ## The invariant -/

/-- What a step in flight of an add or a deletion knows. -/
def Handles (u : UserID) (s : Cloud) : Task → Prop
  | .putData v path _ (.record ..) => v = u ∧ ∃ file, path = objectRef u file
  | .downloadURL v path (.record ..) =>
    v = u ∧ ∃ file, path = objectRef u file ∧ HasObject s path
  | .imageWrite v key link _ _ => v = u ∧
    (∃ file, link = s.firebase.downloadURL (objectRef u file) ∧ HasObject s (objectRef u file)) ∧
      imageAt u key s.database = [] ∧ ∃ n < s.created, key = s.firebase.autoId n
  | .imageRemove v id => v = u ∧ components id = [id]
  | _ => False

/-- The step in flight is on its way to link the object at the path. -/
def Awaits (s : Cloud) (path : List String) : Task → Prop
  | .downloadURL _ path' _ => path' = path
  | .imageWrite _ _ link _ _ => link = s.firebase.downloadURL path
  | _ => False

/-- The object at the path, if there is one, is linked or about to be. -/
def Accounted (u : UserID) (path : List String) (s : Cloud) : Prop :=
  HasObject s path → Linked u s path ∨ ∃ id t, s.inFlight id = some t ∧ Awaits s path t

/-- The steps in flight know what they do, every record has its object, and keys are unique. -/
structure Kept (u : UserID) (s : Cloud) : Prop where
  handles : ∀ id t, s.inFlight id = some t → Handles u s t
  single : ∀ i j key link text name link' text' name',
    s.inFlight i = some (.imageWrite u key link text name) →
      s.inFlight j = some (.imageWrite u key link' text' name') → i = j
  keys : UniqueKeys u s
  records : RecordsHaveObjects u s

/-! ## One step -/

section Step

variable {u : UserID} {s : Cloud} {id : ℕ} {t : Task}

theorem linkOf_imageRecord {key link text name : String} {database : Database}
    (h : imageAt u key database = imageRecord link text name) :
    linkOf u key database = some link := by
  rw [linkOf, h]
  simp [valueFor, imageRecord, snapshot, below, leaf?, Leaf.asString]

theorem imageAt_ne_nil_of_linkOf {key link : String} {database : Database}
    (h : linkOf u key database = some link) : imageAt u key database ≠ [] := by
  intro he
  rw [linkOf, he] at h
  exact absurd h (by simp [valueFor, snapshot, leaf?])

/-- Writing a record leaves the others. -/
theorem imageAt_imageWrite (u : UserID) (key link text name : String) (database : Database)
    (key' : String) :
    imageAt u key' ((Task.imageWrite u key link text name).write database)
      = if key' = key then imageRecord link text name else imageAt u key' database := by
  split
  · rename_i hk
    subst hk
    exact snapshot_setValue_self _ _ _
  · rename_i hk
    exact snapshot_setValue_of_not_meet (not_meet_append_cons _ (Ne.symm hk)) _ _

/-- Removing a record leaves the others. -/
theorem imageAt_imageRemove {key : String} (h : components key = [key]) (u : UserID)
    (database : Database) (key' : String) :
    imageAt u key' ((Task.imageRemove u key).write database)
      = if key' = key then [] else imageAt u key' database := by
  rw [Task.write, child, h]
  split
  · rename_i hk
    subst hk
    exact snapshot_removeValue_self _ _
  · rename_i hk
    exact snapshot_removeValue_of_not_meet (not_meet_append_cons _ (Ne.symm hk)) _

/-- Only writing or removing one of its records, or `setupUser`, changes a user's images. -/
theorem images_write (hset : ∀ user, t = .setupWrite user → user.Key ≠ u)
    (hwrite : ∀ key link text name, t ≠ .imageWrite u key link text name)
    (hremove : ∀ key, t ≠ .imageRemove u key) (database : Database) :
    snapshot (imagesRef u) (t.write database) = snapshot (imagesRef u) database := by
  rw [imagesRef_eq]
  by_cases hu : t.user = u
  · refine Task.snapshot_write_of_key_ne (fun user he ↦ hset user he (by rw [← hu, he]; rfl)) ?_ _
    intro hkey
    cases t <;> simp [Task.writtenKey] at hkey
    case imageWrite v key link text name => exact hwrite key link text name (hu ▸ rfl)
    case imageRemove v key => exact hremove key (hu ▸ rfl)
  · rw [← snapshot_snapshot, ← snapshot_snapshot, Task.snapshot_write_of_user_ne hu]

/-- **What a step does to a record**: it writes it, removes it, or leaves it. -/
theorem imageAt_write (hset : ∀ user, t = .setupWrite user → user.Key ≠ u)
    (hplain : ∀ key, t = .imageRemove u key → components key = [key]) (key : String)
    (database : Database) :
    (∃ link text name, t = .imageWrite u key link text name ∧
      imageAt u key (t.write database) = imageRecord link text name) ∨
    (t = .imageRemove u key ∧ imageAt u key (t.write database) = []) ∨
    ((∀ link text name, t ≠ .imageWrite u key link text name) ∧ t ≠ .imageRemove u key ∧
      imageAt u key (t.write database) = imageAt u key database) := by
  by_cases hw : ∃ key' link text name, t = .imageWrite u key' link text name
  · obtain ⟨key', link, text, name, rfl⟩ := hw
    rw [imageAt_imageWrite]
    rcases eq_or_ne key key' with rfl | hk
    · exact Or.inl ⟨link, text, name, rfl, if_pos rfl⟩
    · exact Or.inr (Or.inr ⟨by simp [hk.symm], by simp, if_neg hk⟩)
  by_cases hr : ∃ key', t = .imageRemove u key'
  · obtain ⟨key', rfl⟩ := hr
    rw [imageAt_imageRemove (hplain key' rfl)]
    rcases eq_or_ne key key' with rfl | hk
    · exact Or.inr (Or.inl ⟨rfl, if_pos rfl⟩)
    · exact Or.inr (Or.inr ⟨by simp, by simp [hk.symm], if_neg hk⟩)
  push Not at hw hr
  refine Or.inr (Or.inr ⟨hw key, hr key, ?_⟩)
  rw [imageAt, imageAt, ← snapshot_snapshot, ← snapshot_snapshot, images_write hset hw hr]

/-- What a step of an add or a deletion does to a record. -/
theorem Handles.imageAt_write (h : Handles u s t) (key : String) :
    (∃ link text name, t = .imageWrite u key link text name ∧
      imageAt u key (t.write s.database) = imageRecord link text name) ∨
    (t = .imageRemove u key ∧ imageAt u key (t.write s.database) = []) ∨
    ((∀ link text name, t ≠ .imageWrite u key link text name) ∧ t ≠ .imageRemove u key ∧
      imageAt u key (t.write s.database) = imageAt u key s.database) := by
  refine LandCap.imageAt_write ?_ ?_ key s.database
  · rintro user rfl
    exact h.elim
  · rintro key rfl
    exact h.2

/-- A record is about to be written because it has just got its key, or was before. -/
theorem imageWrite_perform {j : ℕ} {key link text name : String}
    (h : (s.perform id t).inFlight j = some (.imageWrite u key link text name)) :
    (j = id ∧ ∃ path, t = .downloadURL u path (.record text name) ∧
      key = s.firebase.autoId s.created ∧ link = s.firebase.downloadURL path) ∨
    (j ≠ id ∧ s.inFlight j = some (.imageWrite u key link text name)) := by
  rcases Cloud.perform_inFlight h (by simp) with ⟨rfl, hf⟩ | hj
  · cases Cloud.followUp_cases hf with
    | imageWrite _ path => exact Or.inl ⟨rfl, path, rfl, rfl, rfl⟩
  · exact Or.inr hj

/-- Two records on their way have different keys after a step if they had before it, and none of
them had the key that is made next. -/
theorem single_perform
    (hsingle : ∀ i j key link text name link' text' name',
      s.inFlight i = some (.imageWrite u key link text name) →
        s.inFlight j = some (.imageWrite u key link' text' name') → i = j)
    (hold : ∀ j key link text name, s.inFlight j = some (.imageWrite u key link text name) →
      key ≠ s.firebase.autoId s.created)
    {i j : ℕ} {key link text name link' text' name' : String}
    (hi : (s.perform id t).inFlight i = some (.imageWrite u key link text name))
    (hj : (s.perform id t).inFlight j = some (.imageWrite u key link' text' name')) : i = j := by
  rcases imageWrite_perform hi with ⟨rfl, -, -, hnew, -⟩ | ⟨-, hi'⟩ <;>
    rcases imageWrite_perform hj with ⟨rfl, -, -, hnew', -⟩ | ⟨-, hj'⟩
  · rfl
  · exact absurd hnew (hold _ _ _ _ _ hj')
  · exact absurd hnew' (hold _ _ _ _ _ hi')
  · exact hsingle _ _ _ _ _ _ _ _ _ hi' hj'

/-- An object stays where it is. -/
theorem HasObject.perform {path : List String} (h : HasObject s path) :
    HasObject (s.perform id t) path := by
  cases t <;> try exact h
  case putData v path' data success =>
    show (Function.update s.storage path' (some data) path).isSome = true
    by_cases hp : path = path'
    · rw [hp, Function.update_self]
      rfl
    · rw [Function.update_of_ne hp]
      exact h

theorem created_perform (id : ℕ) (t : Task) : s.created ≤ (s.perform id t).created := by
  cases t <;> try exact le_refl _
  case downloadURL v path success => cases success <;> simp [Cloud.perform]

/-- No add or deletion observes. -/
theorem Kept.inFlight_of_perform (h : Kept u s) {j : ℕ} (hne : j ≠ id) :
    (s.perform id t).inFlight j = s.inFlight j :=
  Cloud.perform_inFlight_eq t hne fun _ _ hj ↦ h.handles j _ hj

/-- A step in flight that is not carried out knows the same afterwards. -/
theorem Handles.perform (h : Kept u s) (hid : s.inFlight id = some t) {j : ℕ} {t' : Task}
    (hne : j ≠ id) (hj : s.inFlight j = some t') : Handles u (s.perform id t) t' := by
  have hn := h.handles j t' hj
  cases t' <;> try exact hn
  case putData v path data success => cases success <;> exact hn
  case downloadURL v path success =>
    cases success
    · obtain ⟨hv, file, hp, ho⟩ := hn
      exact ⟨hv, file, hp, ho.perform⟩
    · exact hn
  case imageWrite v key link text name =>
    obtain ⟨rfl, ⟨file, hl, ho⟩, hfree, n, hlt, hkey⟩ := hn
    refine ⟨rfl, ⟨file, hl, ho.perform⟩, ?_, n, hlt.trans_le (created_perform id t), hkey⟩
    rcases (h.handles id t hid).imageAt_write key with ⟨link', text', name', rfl, -⟩ |
      ⟨-, hnil⟩ | ⟨-, -, hsame⟩
    · exact absurd (h.single _ _ _ _ _ _ _ _ _ hj hid) hne
    · exact hnil
    · exact hsame.trans hfree

/-- What follows a step knows what it has to know. -/
theorem Handles.followUp (h : Kept u s) (hid : s.inFlight id = some t) {t' : Task}
    (hf : s.followUp t = some t') : Handles u (s.perform id t) t' := by
  have hn := h.handles id t hid
  cases Cloud.followUp_cases hf <;> try exact hn.elim
  case downloadURL v path data success =>
    have hput : HasObject (s.perform id (.putData v path data success)) path := by
      show (Function.update s.storage path (some data) path).isSome = true
      rw [Function.update_self]
      rfl
    cases success
    · obtain ⟨hv, file, hp⟩ := hn
      exact ⟨hv, file, hp, hput⟩
    · exact hn.elim
  case imageWrite v path text name =>
    obtain ⟨hv, file, rfl, ho⟩ := hn
    have hfree := h.keys.unused _ (le_refl s.created)
    exact ⟨hv, ⟨file, rfl, ho.perform⟩, hfree, s.created, Nat.lt_succ_self _, rfl⟩

/-- A record that is about to be written has a key made so far. -/
theorem Kept.lt_created (h : Kept u s) {n : ℕ} {link text name : String}
    (hid : s.inFlight id = some (.imageWrite u (s.firebase.autoId n) link text name)) :
    n < s.created := by
  obtain ⟨-, -, -, m, hlt, hm⟩ := h.handles id _ hid
  rwa [h.keys.injective hm]

theorem kept_deliver (h : Kept u s) (hid : s.inFlight id = some t) : Kept u (s.perform id t) where
  handles j t' hj := by
    rcases eq_or_ne j id with rfl | hne
    · rw [Cloud.perform_inFlight_self] at hj
      exact Handles.followUp h hid hj
    · exact Handles.perform h hid hne ((h.inFlight_of_perform hne).symm.trans hj)
  single i j key link text name link' text' name' hi hj := by
    -- a key that has just been made is not the key of a record on its way
    refine single_perform h.single ?_ hi hj
    rintro k key link text name hk rfl
    exact absurd (h.lt_created hk) (lt_irrefl _)
  keys := by
    refine ⟨h.keys.injective, fun n hn ↦ ?_⟩
    have hle : s.created ≤ n := (created_perform id t).trans hn
    rcases (h.handles id t hid).imageAt_write (s.firebase.autoId n) with
      ⟨link, text, name, rfl, -⟩ | ⟨-, hnil⟩ | ⟨-, -, hsame⟩
    · exact absurd (h.lt_created hid) (not_lt.mpr hle)
    · exact hnil
    · exact hsame.trans (h.keys.unused n hle)
  records key hne := by
    rw [Cloud.perform_database] at hne ⊢
    rcases (h.handles id t hid).imageAt_write key with
      ⟨link, text, name, rfl, hrecord⟩ | ⟨-, hnil⟩ | ⟨-, -, hsame⟩
    · obtain ⟨-, ⟨file, rfl, ho⟩, -⟩ := h.handles id _ hid
      exact ⟨file, linkOf_imageRecord hrecord, ho.perform⟩
    · exact absurd hnil hne
    · rw [hsame] at hne
      obtain ⟨file, hlink, ho⟩ := h.records key hne
      refine ⟨file, ?_, ho.perform⟩
      rw [linkOf, hsame]
      exact hlink

/-- **An object that a step does not orphan stays accounted for.** -/
theorem accounted_deliver (h : Kept u s) (hid : s.inFlight id = some t) {file : String}
    (ha : Accounted u (objectRef u file) s) (ho : ¬Orphans u (objectRef u file) s (.deliver id)) :
    Accounted u (objectRef u file) (s.perform id t) := by
  have hn := h.handles id t hid
  intro hobject
  by_cases hput : ∃ v data success, t = .putData v (objectRef u file) data success
  · -- the upload of this object: its URL is looked up next
    obtain ⟨v, data, success, rfl⟩ := hput
    exact Or.inr ⟨id, .downloadURL v (objectRef u file) success, s.perform_inFlight_self id _, rfl⟩
  have hobject : HasObject s (objectRef u file) := by
    cases t <;> try exact hobject
    case putData v path data success =>
      have hp : objectRef u file ≠ path := fun he ↦ hput ⟨v, data, success, by rw [he]⟩
      have hstored :
          (Function.update s.storage path (some data) (objectRef u file)).isSome = true := hobject
      rwa [Function.update_of_ne hp] at hstored
  rcases ha hobject with ⟨key, hkey⟩ | ⟨j, t', hj, hawaits⟩
  · -- the record that links to it is neither replaced nor removed
    refine Or.inl ⟨key, ?_⟩
    rcases hn.imageAt_write key with ⟨link, text, name, rfl, -⟩ | ⟨rfl, -⟩ | ⟨-, -, hsame⟩
    · exact absurd hn.2.2.1 (imageAt_ne_nil_of_linkOf hkey)
    · exact absurd ⟨key, hid, hkey⟩ ho
    · rw [Cloud.perform_database, linkOf, hsame]
      exact hkey
  · rcases eq_or_ne j id with rfl | hne
    · obtain rfl : t = t' := Option.some.inj (hid.symm.trans hj)
      cases t <;> try exact hawaits.elim
      case downloadURL v path success =>
        obtain rfl : path = objectRef u file := hawaits
        cases success
        · exact Or.inr ⟨j, _, s.perform_inFlight_self j _, rfl⟩
        · exact hn.elim
      case imageWrite v key link text name =>
        obtain rfl : link = s.firebase.downloadURL (objectRef u file) := hawaits
        obtain rfl := hn.1
        exact Or.inl ⟨key, linkOf_imageRecord (snapshot_setValue_self _ _ _)⟩
    · refine Or.inr ⟨j, t', (h.inFlight_of_perform hne).trans hj, ?_⟩
      cases t' <;> exact hawaits

/-- Another first step of an add or a deletion, or none. -/
theorem kept_update (h : Kept u s) (id : ℕ) {t : Option Task}
    (ht : ∀ t', t = some t' → Handles u s t' ∧
      ∀ key link text name, t' ≠ .imageWrite u key link text name) :
    Kept u { s with inFlight := Function.update s.inFlight id t } where
  handles j t' hj := by
    have hn : Handles u s t' := by
      rcases update_eq_some hj with ⟨-, hj⟩ | ⟨-, hj⟩
      · exact (ht t' hj).1
      · exact h.handles j t' hj
    cases t' <;> try exact hn.elim
    case putData v path data success => cases success <;> exact hn
    case downloadURL v path success => cases success <;> exact hn
    all_goals exact hn
  single i j key link text name link' text' name' hi hj := by
    have hne : ∀ {k link text name}, Function.update s.inFlight id t k
        = some (.imageWrite u key link text name) →
        s.inFlight k = some (.imageWrite u key link text name) := by
      intro k link text name hk
      refine (update_eq_some_of_ne hk fun hnew ↦ ?_).2
      exact absurd rfl ((ht _ hnew).2 key link text name)
    exact h.single i j key link text name link' text' name' (hne hi) (hne hj)
  keys := ⟨h.keys.injective, h.keys.unused⟩
  records := h.records

/-- Nothing that is on its way to link the object is replaced. -/
theorem accounted_update {path : List String} (ha : Accounted u path s) (id : ℕ) {t : Option Task}
    (hid : ∀ t', s.inFlight id = some t' → ¬Awaits s path t') :
    Accounted u path { s with inFlight := Function.update s.inFlight id t } := by
  intro hobject
  refine (ha hobject).imp (fun hlinked ↦ hlinked) fun ⟨j, t', hj, hawaits⟩ ↦ ⟨j, t', ?_, ?_⟩
  · have hne : j ≠ id := by
      rintro rfl
      exact hid t' hj hawaits
    simp only [Function.update_of_ne hne, hj]
  · cases t' <;> exact hawaits

/-- **The step lemma.** -/
theorem kept_step {s' : Cloud} {a : Action} (h : Kept u s)
    (ha : AddOrDelete u a ∧ FailsAtStorage s a) (hstep : s.step a = some s') :
    Kept u s' ∧ ∀ file, Accounted u (objectRef u file) s → ¬Orphans u (objectRef u file) s a →
      Accounted u (objectRef u file) s' := by
  cases a with
  | call id c =>
    obtain ⟨hid, rfl⟩ := Cloud.step_call hstep
    refine ⟨kept_update h id fun t ht ↦ ?_, fun file haccounted _ ↦
      accounted_update haccounted id (by simp [hid])⟩
    cases c <;> try exact ha.1.elim
    case addNew v image text name now =>
      obtain rfl := Option.some.inj ht
      obtain rfl : v = u := ha.1
      refine ⟨⟨rfl, fileName now, ?_⟩, by simp⟩
      rw [uploadPath_record, objectRef, userRef_eq]
      rfl
    case deleteUserImage v userImage =>
      obtain ⟨rfl, hkey⟩ := ha.1
      obtain ⟨key, hmem, rfl⟩ := Option.map_eq_some_iff.mp ht
      exact ⟨⟨rfl, hkey key hmem⟩, by simp⟩
  | fail id =>
    obtain ⟨t, hid, -⟩ := Option.map_eq_some_iff.mp hstep
    obtain rfl := Cloud.step_fail hstep
    refine ⟨kept_update h id (by simp), fun file haccounted ho ↦
      accounted_update haccounted id fun t' ht' ↦ ?_⟩
    rcases ha.2 t' ht' with ⟨v, path, data, success, rfl⟩ | ⟨v, path, success, rfl⟩
    · exact not_false
    · rintro rfl
      exact ho ⟨v, success, ht'⟩
  | deliver id =>
    obtain ⟨t, hid, rfl⟩ := Cloud.step_deliver hstep
    exact ⟨kept_deliver h hid, fun file haccounted ho ↦ accounted_deliver h hid haccounted ho⟩

end Step

/-! ## Every object is accounted for -/

theorem kept_of_idle {u : UserID} {s : Cloud} (hs : s.Idle) (hkeys : UniqueKeys u s)
    (h : RecordsHaveObjects u s) : Kept u s where
  handles id t hid := by simp [hs.inFlight] at hid
  single i j key link text name link' text' name' hi := by simp [hs.inFlight] at hi
  keys := hkeys
  records := h

/-- **Every object is accounted for.**  At the end of a run of adds and deletions no record is
without its object, and an object that no record links to has been orphaned by a step of the run:
the lookup of its URL has failed, or a record that linked to it has been removed. -/
theorem objects_accounted {u : UserID} {s₀ t : Cloud} {as : List Action} (hs : s₀.Idle)
    (hkeys : UniqueKeys u s₀) (h₀ : InStep u s₀) (hrun : run Cloud.step s₀ as = some t)
    (has : ∀ a ∈ as, AddOrDelete u a) (hfails : Meets Cloud.step FailsAtStorage s₀ as)
    (hquiet : ∀ id, t.inFlight id = none) :
    RecordsHaveObjects u t ∧ ∀ file, HasObject t (objectRef u file) →
      Linked u t (objectRef u file) ∨ ∃ bs a cs m, as = bs ++ a :: cs ∧
        run Cloud.step s₀ bs = some m ∧ Orphans u (objectRef u file) m a := by
  have hmeets := hfails.and_mem has
  have hkept := kept_of_idle hs hkeys h₀.records
  refine ⟨(run_invariant (fun _ _ _ h ha hstep ↦ (kept_step h ha hstep).1) hkept hmeets
    hrun).records, fun file hobject ↦ ?_⟩
  by_cases ho : Meets Cloud.step (fun s a ↦ ¬Orphans u (objectRef u file) s a) s₀ as
  · -- followed all the way, the object is linked, since nothing is on its way any more
    have hfollowed := run_invariant (I := fun s ↦ Kept u s ∧ Accounted u (objectRef u file) s)
      (fun _ _ _ h ha hstep ↦ (kept_step h.1 ha.1 hstep).imp_right fun hnext ↦
        hnext file h.2 ha.2) ⟨hkept, fun hobject ↦ Or.inl (h₀.objects file hobject)⟩
      (hmeets.and ho) hrun
    rcases hfollowed.2 hobject with hlinked | ⟨id, t', hid, -⟩
    · exact Or.inl hlinked
    · rw [hquiet id] at hid
      exact absurd hid (by simp)
  · obtain ⟨bs, a, cs, m, rfl, hm, horphans⟩ := exists_of_not_meets ho
    exact Or.inr ⟨bs, a, cs, m, rfl, hm, not_not.mp horphans⟩

/-! ## A deleted picture -/

theorem Firebase.plain_autoId_injective : Function.Injective Firebase.plain.autoId := by
  intro m n h
  have hrepr : m.repr = n.repr := (String.append_right_inj "-").mp h
  have hdigits : Nat.toDigits 10 m = Nat.toDigits 10 n := by
    rw [← Nat.toList_repr, ← Nat.toList_repr, hrepr]
  rw [← Nat.ofDigitChars_toDigits (b := 10) (n := m) (by decide) (by decide), hdigits,
    Nat.ofDigitChars_toDigits (by decide) (by decide)]

/-- Nothing is stored, so the two stores are in step. -/
theorem inStep_start (u : UserID) (firebase : Firebase) : InStep u (.start firebase []) where
  records key h := absurd rfl h
  objects file h := absurd h (by simp [HasObject, Cloud.start])

theorem uniqueKeys_start (u : UserID) : UniqueKeys u (.start .plain []) where
  injective := Firebase.plain_autoId_injective
  unused _ _ := rfl

/-- A picture is saved and deleted again, and the URL of another one cannot be looked up. -/
def savingAndDeleting : List Action :=
  uploadSteps 0 (.addNew alice [1] "text" "name" halfPastOne) ++
    [.call 1 (.deleteUserImage alice ⟨none, none, none, some "-0"⟩), .deliver 1,
      .call 0 (.addNew alice [2] "text" "name" aMinuteLater), .deliver 0, .fail 0]

theorem addOrDelete_savingAndDeleting : ∀ a ∈ savingAndDeleting, AddOrDelete alice a := by
  have hkey : components "-0" = ["-0"] := by decide
  simp [savingAndDeleting, uploadSteps, AddOrDelete, hkey]

theorem failsAtStorage_savingAndDeleting :
    Meets Cloud.step FailsAtStorage (.start .plain []) savingAndDeleting := by
  rw [savingAndDeleting, uploadSteps, List.cons_append, List.cons_append, List.cons_append,
    List.cons_append, List.nil_append, meets_cons rfl, meets_cons rfl, meets_cons rfl,
    meets_cons rfl, meets_cons rfl, meets_cons rfl, meets_cons rfl, meets_cons rfl, meets_cons rfl]
  refine ⟨trivial, trivial, trivial, trivial, trivial, trivial, trivial, trivial, ?_, trivial⟩
  intro t ht
  exact Or.inr ⟨_, _, _, (Option.some.inj ht).symm⟩

theorem objects_accounted_savingAndDeleting :
    ∃ t, run Cloud.step (.start .plain []) savingAndDeleting = some t ∧
      RecordsHaveObjects alice t := by
  obtain ⟨t, ht⟩ : ∃ t, run Cloud.step (.start .plain []) savingAndDeleting = some t := ⟨_, rfl⟩
  refine ⟨t, ht, (objects_accounted (Cloud.idle_start _ _) (uniqueKeys_start alice)
    (inStep_start alice _) ht addOrDelete_savingAndDeleting failsAtStorage_savingAndDeleting
    ?_).1⟩
  obtain rfl := Option.some.inj ht
  exact fun id ↦ match id with | 0 => rfl | 1 => rfl | _ + 2 => rfl

/-- **A deleted picture stays in storage.** -/
theorem not_in_step : ¬∀ (u : UserID) (s₀ t : Cloud) (as : List Action), s₀.Idle →
    UniqueKeys u s₀ → InStep u s₀ → run Cloud.step s₀ as = some t → (∀ a ∈ as, AddOrDelete u a) →
    Meets Cloud.step FailsAtStorage s₀ as → (∀ id, t.inFlight id = none) → InStep u t := by
  intro h
  obtain ⟨t, ht⟩ : ∃ t, run Cloud.step (.start .plain []) savingAndDeleting = some t := ⟨_, rfl⟩
  have hstep := h alice _ t _ (Cloud.idle_start _ _) (uniqueKeys_start alice)
    (inStep_start alice _) ht addOrDelete_savingAndDeleting failsAtStorage_savingAndDeleting
  obtain rfl := Option.some.inj ht
  have hin := hstep fun id ↦ match id with | 0 => rfl | 1 => rfl | _ + 2 => rfl
  obtain ⟨key, hkey⟩ := hin.objects (fileName halfPastOne) (by decide)
  exact imageAt_ne_nil_of_linkOf hkey rfl

end LandCap
