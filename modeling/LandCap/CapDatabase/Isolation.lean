import LandCap.CapDatabase.Basic

/-!
# Users do not interfere

Every path a call of a user reads, writes or uploads to lies below that user's own node, so the
calls of other users should make no difference to it.  `users_do_not_interfere` says so about two
runs: take all steps of `v` out of a run, and the run that is left can still be carried out, every
other user's callbacks receive the same values in the same order, and the node and the objects of
every other user end up the same.

There is one thing the two runs have to share that no path protects.  A record gets its key from
`childByAutoId`, which makes it from the time and from random numbers on the device that adds the
record.  In the model the keys come from a single sequence, in which the keys of the two runs
stand at different places; `keysWithout` lists those of the other users in the whole run, and the
run without `v` is one in which `childByAutoId` makes the same ones.

`Apart` is the relation the two runs keep: what is in flight and what has been called back differ by
`v`'s part only.  A step of `v` changes nothing that is visible on the other side (`apart_hidden`),
and any other step can be followed (`apart_visible`).
-/

set_option autoImplicit false

namespace LandCap

open PathTree Runs

/-! ## Whose step it is -/

/-- The user whose callback it is. -/
def Callback.user : Callback → UserID
  | .limit userID _ | .trap userID | .saved userID | .image userID _ | .name userID .. => userID

/-- The user whose step `a` is. -/
def Cloud.actor (s : Cloud) : Action → Option UserID
  | .call _ c => some c.user
  | .deliver id | .fail id => (s.inFlight id).map Task.user

/-- The run without the steps of `v`. -/
def withoutUser (v : UserID) (s : Cloud) (as : List Action) : List Action :=
  without Cloud.step (fun s a ↦ s.actor a = some v) s as

/-- The key a step makes. -/
def Cloud.keyOf (s : Cloud) : Task → List String
  | .downloadURL _ _ (.record ..) => [s.firebase.autoId s.created]
  | _ => []

def Cloud.newKey (s : Cloud) : Action → List String
  | .deliver id => (s.inFlight id).elim [] s.keyOf
  | _ => []

/-- The keys the run makes for records of users other than `v`, in order. -/
def keysWithout (v : UserID) : Cloud → List Action → List String
  | _, [] => []
  | s, a :: as =>
    (if s.actor a = some v then [] else s.newKey a) ++
      (s.step a).elim [] fun s' ↦ keysWithout v s' as

/-- `childByAutoId` makes these keys next. -/
def Cloud.Makes (s : Cloud) (keys : List String) : Prop :=
  ∀ n key, keys[n]? = some key → s.firebase.autoId (s.created + n) = key

/-! ## What a user sees -/

/-- The values handed to the callbacks of `u`, the latest first. -/
def Cloud.delivered (u : UserID) (s : Cloud) : List Callback :=
  s.callbacks.filter fun c ↦ c.user = u

/-- `u` cannot tell the two states apart: not by the values delivered so far, nor by the node
`users/u`, nor by the objects under `users/u`. -/
structure SameFor (u : UserID) (s s' : Cloud) : Prop where
  delivered : s'.delivered u = s.delivered u
  database : snapshot (userRef u) s'.database = snapshot (userRef u) s.database
  storage : ∀ path, s'.storage (userRef u ++ path) = s.storage (userRef u ++ path)

/-- The second state is the first without `v`, and goes on with these keys. -/
structure Apart (v : UserID) (keys : List String) (s s' : Cloud) : Prop where
  makes : s'.Makes keys
  downloadURL : s'.firebase.downloadURL = s.firebase.downloadURL
  database : ∀ u, u ≠ v → snapshot (userRef u) s'.database = snapshot (userRef u) s.database
  storage : ∀ u, u ≠ v → ∀ path, s'.storage (userRef u ++ path) = s.storage (userRef u ++ path)
  inFlight : ∀ id, s'.inFlight id = (s.inFlight id).filter fun t ↦ t.user ≠ v
  callbacks : s'.callbacks = s.callbacks.filter fun c ↦ c.user ≠ v
  /-- Uploads stay below the node of their user. -/
  uploads : ∀ id w path data success, s.inFlight id = some (.putData w path data success) →
    ∃ rest, path = userRef w ++ rest

theorem Apart.sameFor {u v : UserID} {keys : List String} {s s' : Cloud} (h : Apart v keys s s')
    (hu : u ≠ v) : SameFor u s s' where
  delivered := by
    rw [Cloud.delivered, Cloud.delivered, h.callbacks, List.filter_filter]
    refine List.filter_congr fun c _ ↦ ?_
    by_cases hc : c.user = u <;> simp [hc, hu]
  database := h.database u hu
  storage := h.storage u hu

/-! ## Steps and their users -/

section Users

variable {s : Cloud} {t : Task}

/-- A step calls back its own user only. -/
theorem Cloud.user_callback {c : Callback} (h : c ∈ s.callback t) : c.user = t.user := by
  cases t <;> simp only [Cloud.callback, List.not_mem_nil] at h
  case limitRead w =>
    split at h <;> simp only [List.mem_singleton, List.not_mem_nil] at h <;> exact h ▸ rfl
  case downloadURL w path success =>
    cases success <;> simp only [List.mem_singleton, List.not_mem_nil] at h
    exact h ▸ rfl
  case nameRead w =>
    obtain rfl := List.mem_singleton.mp h
    rfl
  case images w queue =>
    cases queue with
    | nil => exact absurd h List.not_mem_nil
    | cons e queue =>
      obtain ⟨image, -, rfl⟩ := Option.map_eq_some_iff.mp (Option.mem_toList.mp h)
      rfl

/-- An observer is not told of a change that leaves its records as they were. -/
theorem childAdded_eq_nil {u : UserID} {old new : Database}
    (h : snapshot (imagesRef u) new = snapshot (imagesRef u) old) : childAdded u old new = [] := by
  rw [childAdded, h, List.filter_eq_nil_iff]
  intro e he
  obtain ⟨key, hkey, rfl⟩ := List.mem_map.mp he
  simpa using (List.mem_mergeSort.mp hkey)

theorem notify_eq_self {old new : Database}
    (h : snapshot (userRef t.user) new = snapshot (userRef t.user) old) : t.notify old new = t := by
  cases t <;> try rfl
  case images w queue =>
    have himages : snapshot (imagesRef w) new = snapshot (imagesRef w) old := by
      rw [imagesRef_eq, ← snapshot_snapshot, ← snapshot_snapshot]
      exact congrArg (snapshot ["images"]) h
    rw [Task.notify, childAdded_eq_nil himages, List.append_nil]

/-- A notification is about the node of the observer's user. -/
theorem notify_congr {old new old' new' : Database}
    (hold : snapshot (userRef t.user) old' = snapshot (userRef t.user) old)
    (hnew : snapshot (userRef t.user) new' = snapshot (userRef t.user) new) :
    t.notify old' new' = t.notify old new := by
  cases t <;> try rfl
  case images w queue =>
    have himages : ∀ {a b : Database}, snapshot (userRef w) a = snapshot (userRef w) b →
        snapshot (imagesRef w) a = snapshot (imagesRef w) b := by
      intro a b hab
      rw [imagesRef_eq, ← snapshot_snapshot, ← snapshot_snapshot, hab]
    rw [Task.notify, Task.notify, childAdded, childAdded, himages hold, himages hnew]

/-- **A write below a user's node depends on that node only.** -/
theorem Task.snapshot_write_congr {database database' : Database}
    (h : snapshot (userRef t.user) database' = snapshot (userRef t.user) database) :
    snapshot (userRef t.user) (t.write database')
      = snapshot (userRef t.user) (t.write database) := by
  have hset : ∀ {w : UserID} (p : List String) (value : Database),
      snapshot (userRef w) database' = snapshot (userRef w) database →
      snapshot (userRef w) (setValue (userRef w ++ p) value database')
        = snapshot (userRef w) (setValue (userRef w ++ p) value database) := by
    intro w p value hw
    rw [snapshot_setValue_above, snapshot_setValue_above, hw]
  cases t <;> simp only [Task.write, Task.user] at h ⊢
  case setupWrite user => rw [snapshot_setValue_self, snapshot_setValue_self]
  case limitWrite w n => rw [photoLimitRef_eq]; exact hset _ _ h
  case nameWrite w name => rw [nameRef_eq]; exact hset _ _ h
  case profileUrlWrite w url => rw [profileUrlRef_eq]; exact hset _ _ h
  case imageWrite w key link text name =>
    rw [imagesRef_eq, List.append_assoc]
    exact hset _ _ h
  case imageRemove w id =>
    rw [child, imagesRef_eq, List.append_assoc, snapshot_removeValue_above,
      snapshot_removeValue_above, h]
  all_goals exact h

/-- An upload goes below its user's node. -/
theorem Call.path_below {c : Call} {w : UserID} {path : List String} {data : Data}
    {success : Success} (h : c.task = some (.putData w path data success)) :
    ∃ rest, path = userRef w ++ rest := by
  have hfolder : child [] ("users/" ++ w.val) = userRef w := by
    have hc := components_append_slash "users" w.val
    rw [components_userID, show components "users" = ["users"] by decide] at hc
    rw [userRef_eq]
    exact hc
  have hprofile : child [] ("users/" ++ w.val ++ "/profileImage")
      = userRef w ++ components "profileImage" := by
    rw [← child_interpolated, String.append_assoc, String.append_assoc, String.append_assoc]
    rfl
  cases c <;> simp only [Call.task, Option.some.injEq, Task.putData.injEq, reduceCtorEq,
    Option.map_eq_some_iff, and_false, exists_false] at h
  case addNew w' image text name now =>
    obtain ⟨rfl, rfl, -, rfl⟩ := h
    exact ⟨_, by rw [uploadPath, uploadFolder, hfolder, child]⟩
  case updateProfileImage w' data' now =>
    obtain ⟨rfl, rfl, -, rfl⟩ := h
    exact ⟨_, by rw [uploadPath, uploadFolder, hprofile, child, List.append_assoc]⟩

theorem Cloud.followUp_ne_putData (s : Cloud) (t : Task) (w : UserID) (path : List String)
    (data : Data) (success : Success) : s.followUp t ≠ some (.putData w path data success) := by
  intro h
  cases Cloud.followUp_cases h

end Users

/-! ## Steps of `v` -/

section Steps

variable {v : UserID} {keys : List String} {s m : Cloud}

theorem filter_user_of_eq {t : Task} (h : t.user = v) :
    (some t).filter (fun t ↦ t.user ≠ v) = none := by
  simp [Option.filter, h]

theorem filter_user_of_ne {t : Task} (h : t.user ≠ v) :
    (some t).filter (fun t ↦ t.user ≠ v) = some t := by
  simp [Option.filter, h]

/-- Notifications do not move a step from one user to another. -/
theorem filter_map_notify {old new : Database} {g : Task → Task} {x : Option Task}
    (h : ∀ t, x = some t → t.user ≠ v → g t = t.notify old new) :
    (x.map (Task.notify old new)).filter (fun t ↦ t.user ≠ v)
      = (x.filter fun t ↦ t.user ≠ v).map g := by
  cases x with
  | none => rfl
  | some t =>
    rw [Option.map_some]
    by_cases hv : t.user = v
    · rw [filter_user_of_eq hv, filter_user_of_eq ((Task.user_notify _ _ t).trans hv)]
      rfl
    · rw [filter_user_of_ne hv, filter_user_of_ne ((Task.user_notify _ _ t).trans_ne hv),
        Option.map_some, h t rfl hv]

/-- Another step, or none, in flight on the one side, and what is not `v`'s of it on the other. -/
theorem Apart.update (h : Apart v keys s m) (id : ℕ) {t : Option Task}
    (ht : ∀ w path data success, t = some (.putData w path data success) →
      ∃ rest, path = userRef w ++ rest) :
    Apart v keys { s with inFlight := Function.update s.inFlight id t }
      { m with inFlight := Function.update m.inFlight id (t.filter fun t ↦ t.user ≠ v) } where
  makes := h.makes
  downloadURL := h.downloadURL
  database := h.database
  storage := h.storage
  inFlight j := by
    rcases eq_or_ne j id with rfl | hne
    · simp only [Function.update_self]
    · simp only [Function.update_of_ne hne]
      exact h.inFlight j
  callbacks := h.callbacks
  uploads j w path data success hj := by
    rcases update_eq_some hj with ⟨-, hnew⟩ | ⟨-, hj⟩
    · exact ht w path data success hnew
    · exact h.uploads j w path data success hj

/-- An upload of one user does not go below the node of another. -/
theorem store_of_user_ne {u : UserID} {id : ℕ} {t : Task} (h : Apart v keys s m)
    (hid : s.inFlight id = some t) (hu : u ≠ t.user) (path : List String) :
    t.store s.storage (userRef u ++ path) = s.storage (userRef u ++ path) := by
  cases t <;> try rfl
  case putData w path' data success =>
    obtain ⟨rest, rfl⟩ := h.uploads id w path' data success hid
    refine Function.update_of_ne (fun he ↦ ?_) _ _
    exact not_meet_of_ne hu path rest (Or.inl (he ▸ List.prefix_rfl))

/-- What is in flight after a step are no new uploads. -/
theorem uploads_perform {id : ℕ} (h : Apart v keys s m) (t : Task) :
    ∀ j w path data success, (s.perform id t).inFlight j = some (.putData w path data success) →
      ∃ rest, path = userRef w ++ rest := by
  intro j w path data success hj
  rcases Cloud.perform_inFlight hj (by simp) with ⟨-, hf⟩ | ⟨-, hj⟩
  · exact absurd hf (s.followUp_ne_putData t w path data success)
  · exact h.uploads j w path data success hj

/-- A step of `v` is not seen on the other side. -/
theorem Apart.perform_hidden (h : Apart v keys s m) {id : ℕ} {t : Task}
    (hid : s.inFlight id = some t) (ht : t.user = v) : Apart v keys (s.perform id t) m where
  makes := h.makes
  downloadURL := h.downloadURL
  database u hu := by
    have hne : t.user ≠ u := fun he ↦ hu (he.symm.trans ht)
    rw [h.database u hu, Cloud.perform_database, Task.snapshot_write_of_user_ne hne]
  storage u hu path := by
    rw [h.storage u hu]
    exact (store_of_user_ne h hid (ht ▸ hu) path).symm
  inFlight j := by
    rw [h.inFlight j]
    rcases eq_or_ne j id with rfl | hne
    · rw [hid, Cloud.perform_inFlight_self, filter_user_of_eq ht]
      cases hf : s.followUp t with
      | none => rfl
      | some t' => rw [filter_user_of_eq ((Cloud.user_followUp hf).trans ht)]
    · rw [s.perform_inFlight_of_ne t hne, filter_map_notify (g := fun t ↦ t),
        Option.map_id']
      intro t' _ hv
      have hsame := Task.snapshot_write_of_user_ne (t := t) (u := t'.user)
        (fun he ↦ hv (he.symm.trans ht)) s.database
      rw [notify_eq_self hsame]
  callbacks := by
    have hnone : (s.callback t).filter (fun c ↦ c.user ≠ v) = [] := by
      rw [List.filter_eq_nil_iff]
      intro c hc
      simp [Cloud.user_callback hc, ht]
    rw [Cloud.perform_callbacks, List.filter_append, hnone, List.nil_append, h.callbacks]
  uploads := uploads_perform h t

/-! ## Steps of the others -/

/-- What a step reads of its own node is the same on both sides. -/
theorem Apart.followUp {t : Task} (h : Apart v (s.keyOf t ++ keys) s m) (ht : t.user ≠ v) :
    m.followUp t = s.followUp t := by
  have hnode := h.database t.user ht
  cases t <;> simp only [Cloud.followUp, Task.user] at hnode ⊢
  case setupRead user => rw [hnode]
  case limitRead w => rw [hnode]
  case imagesRead w =>
    rw [imagesRef_eq, ← snapshot_snapshot, ← snapshot_snapshot, hnode]
  case downloadURL w path success =>
    cases success
    case record text name =>
      have hkey := h.makes 0 _ rfl
      simp only [Nat.add_zero] at hkey
      rw [hkey, h.downloadURL]
    case profileUrl => rw [h.downloadURL]

theorem Apart.callback {t : Task} (h : Apart v keys s m) (ht : t.user ≠ v) :
    m.callback t = s.callback t := by
  have hnode := h.database t.user ht
  cases t <;> try rfl
  case limitRead w =>
    rw [Task.user] at hnode
    rw [Cloud.callback, Cloud.callback, hnode]
  case nameRead w =>
    rw [Task.user] at hnode
    rw [Cloud.callback, Cloud.callback, hnode]
  case downloadURL w path success => cases success <;> rfl
  case images w queue => cases queue <;> rfl

/-- The keys that are still to be made after a step. -/
theorem makes_perform {t : Task} (id : ℕ) (h : m.Makes (s.keyOf t ++ keys)) :
    (m.perform id t).Makes keys := by
  intro n key hn
  cases t <;> try exact h n key hn
  case downloadURL w path success =>
    cases success
    case profileUrl => exact h n key hn
    case record text name =>
      have hkey := h (n + 1) key hn
      rwa [← Nat.add_assoc, Nat.add_right_comm] at hkey

/-- A step of another user is followed on the other side. -/
theorem Apart.perform_visible {t : Task} (h : Apart v (s.keyOf t ++ keys) s m) {id : ℕ}
    (ht : t.user ≠ v) : Apart v keys (s.perform id t) (m.perform id t) where
  makes := makes_perform id h.makes
  downloadURL := h.downloadURL
  database u hu := by
    by_cases he : t.user = u
    · subst he
      exact Task.snapshot_write_congr (h.database _ hu)
    · rw [Cloud.perform_database, Cloud.perform_database, Task.snapshot_write_of_user_ne he,
        Task.snapshot_write_of_user_ne he, h.database u hu]
  storage u hu path := by
    have hsame := h.storage u hu path
    cases t <;> try exact hsame
    case putData w path' data success =>
      show Function.update m.storage path' _ _ = Function.update s.storage path' _ _
      by_cases hp : userRef u ++ path = path'
      · rw [hp, Function.update_self, Function.update_self]
      · rw [Function.update_of_ne hp, Function.update_of_ne hp, hsame]
  inFlight j := by
    rcases eq_or_ne j id with rfl | hne
    · rw [Cloud.perform_inFlight_self, Cloud.perform_inFlight_self, h.followUp ht]
      cases hf : s.followUp t with
      | none => rfl
      | some t' => rw [filter_user_of_ne ((Cloud.user_followUp hf).trans_ne ht)]
    · rw [m.perform_inFlight_of_ne t hne, s.perform_inFlight_of_ne t hne, h.inFlight j]
      refine (filter_map_notify fun t' _ hv ↦ notify_congr (h.database _ hv) ?_).symm
      by_cases he : t.user = t'.user
      · rw [← he]
        exact Task.snapshot_write_congr (h.database _ ht)
      · rw [Task.snapshot_write_of_user_ne he, Task.snapshot_write_of_user_ne he, h.database _ hv]
  callbacks := by
    have hall : (s.callback t).filter (fun c ↦ c.user ≠ v) = s.callback t := by
      rw [List.filter_eq_self]
      intro c hc
      simp [Cloud.user_callback hc, ht]
    rw [Cloud.perform_callbacks, Cloud.perform_callbacks, List.filter_append, hall, h.callbacks,
      h.callback ht]
  uploads := uploads_perform h t

/-! ## The two runs -/

/-- **A step of `v` can be ignored.** -/
theorem apart_hidden {s' : Cloud} {a : Action} (h : Apart v keys s m)
    (ha : s.actor a = some v) (hstep : s.step a = some s') : Apart v keys s' m := by
  have hnone : ∀ {id}, m.inFlight id = none → { m with
      inFlight := Function.update m.inFlight id none } = m := fun hid ↦ by
    rw [← hid, Function.update_eq_self]
  cases a with
  | call id c =>
    obtain ⟨hid, rfl⟩ := Cloud.step_call hstep
    have hm : m.inFlight id = none := by rw [h.inFlight, hid]; rfl
    have hv : c.task.filter (fun t ↦ t.user ≠ v) = none := by
      cases hc : c.task with
      | none => rfl
      | some t => exact filter_user_of_eq ((Call.user_task hc).trans (Option.some.inj ha))
    have hnext := h.update id (t := c.task) fun _ _ _ _ ↦ Call.path_below
    rwa [hv, hnone hm] at hnext
  | fail id =>
    obtain rfl := Cloud.step_fail hstep
    obtain ⟨t, hid, hu⟩ := Option.map_eq_some_iff.mp ha
    have hm : m.inFlight id = none := by rw [h.inFlight, hid, filter_user_of_eq hu]
    have hnext := h.update id (t := none) (by simp)
    rwa [Option.filter_none, hnone hm] at hnext
  | deliver id =>
    obtain ⟨t, hid, rfl⟩ := Cloud.step_deliver hstep
    refine h.perform_hidden hid ?_
    rw [Cloud.actor, hid] at ha
    exact Option.some.inj ha

/-- **Any other step can be followed.** -/
theorem apart_visible {s' : Cloud} {a : Action} (h : Apart v (s.newKey a ++ keys) s m)
    (ha : s.actor a ≠ some v) (hstep : s.step a = some s') :
    ∃ m', m.step a = some m' ∧ Apart v keys s' m' := by
  cases a with
  | call id c =>
    obtain ⟨hid, rfl⟩ := Cloud.step_call hstep
    have hm : m.inFlight id = none := by rw [h.inFlight, hid]; rfl
    have hv : c.task.filter (fun t ↦ t.user ≠ v) = c.task := by
      cases hc : c.task with
      | none => rfl
      | some t =>
        have hu : t.user ≠ v := fun he ↦ ha (by rw [Cloud.actor, ← Call.user_task hc, he])
        exact filter_user_of_ne hu
    have hnext := h.update id (t := c.task) fun _ _ _ _ ↦ Call.path_below
    rw [hv] at hnext
    exact ⟨_, by rw [Cloud.step, if_pos hm], hnext⟩
  | fail id =>
    obtain ⟨t, hid, -⟩ := Option.map_eq_some_iff.mp hstep
    obtain rfl := Cloud.step_fail hstep
    have hu : t.user ≠ v := fun he ↦ ha (by rw [Cloud.actor, hid, ← he]; rfl)
    have hm : m.inFlight id = some t := by rw [h.inFlight, hid, filter_user_of_ne hu]
    exact ⟨_, by rw [Cloud.step, hm]; rfl, h.update id (by simp)⟩
  | deliver id =>
    obtain ⟨t, hid, rfl⟩ := Cloud.step_deliver hstep
    have hu : t.user ≠ v := fun he ↦ ha (by rw [Cloud.actor, hid, ← he]; rfl)
    have hm : m.inFlight id = some t := by rw [h.inFlight, hid, filter_user_of_ne hu]
    rw [Cloud.newKey, hid] at h
    exact ⟨_, Cloud.step_deliver_of hm, h.perform_visible hu⟩

/-- Nothing is in flight yet: with the same keys to come, the two sides are one. -/
theorem apart_of_idle (hs : s.Idle) {autoId : ℕ → String}
    (hkeys : ∀ n key, keys[n]? = some key → autoId (s.created + n) = key) :
    Apart v keys s { s with firebase := { s.firebase with autoId := autoId } } where
  makes := hkeys
  downloadURL := rfl
  database _ _ := rfl
  storage _ _ _ := rfl
  inFlight id := by simp [hs.inFlight]
  callbacks := by simp [hs.callbacks]
  uploads id w path data success hid := by simp [hs.inFlight] at hid

end Steps

/-- **Users do not interfere.**  Take the steps of `v` out of a run, and let `childByAutoId` make
the same keys for the records of the others.  What is left is a run again, and no other user can
tell its end from the end of the whole run. -/
theorem users_do_not_interfere {v : UserID} {s₀ t : Cloud} {as : List Action} (hs : s₀.Idle)
    (hrun : run Cloud.step s₀ as = some t) {autoId : ℕ → String}
    (hkeys : ∀ n key, (keysWithout v s₀ as)[n]? = some key → autoId (s₀.created + n) = key) :
    ∃ t', run Cloud.step { s₀ with firebase := { s₀.firebase with autoId := autoId } }
      (withoutUser v s₀ as) = some t' ∧ ∀ u, u ≠ v → SameFor u t t' := by
  obtain ⟨t', ht, hend⟩ : ∃ t',
      run Cloud.step { s₀ with firebase := { s₀.firebase with autoId := autoId } }
        (withoutUser v s₀ as) = some t' ∧ Apart v (keysWithout v t []) t t' := by
    refine run_without (R := fun as s m ↦ Apart v (keysWithout v s as) s m) ?_ ?_
      (apart_of_idle hs hkeys) hrun
    · intro as s m a s' h ha hstep
      rw [keysWithout, if_pos ha, hstep, List.nil_append] at h
      exact apart_hidden h ha hstep
    · intro as s m a s' h ha hstep
      rw [keysWithout, if_neg ha, hstep] at h
      exact apart_visible h ha hstep
  exact ⟨t', ht, fun u hu ↦ hend.sameFor hu⟩

/-- A guest and `alice` save a picture at the same time, and the guest's record comes first. -/
def savingTogether : List Action :=
  [.call 0 (.addNew guest [1] "text" "name" .epoch),
    .call 1 (.addNew alice [2] "text" "name" .epoch), .deliver 0, .deliver 1, .deliver 0,
    .deliver 1, .deliver 1, .deliver 0]

theorem users_do_not_interfere_savingTogether :
    ∃ t t', run Cloud.step (.start .plain []) savingTogether = some t ∧
      run Cloud.step (.start { Firebase.plain with autoId := fun _ ↦ "-1" } [])
        (withoutUser guest (.start .plain []) savingTogether) = some t' ∧ SameFor alice t t' := by
  obtain ⟨t, ht⟩ : ∃ t, run Cloud.step (.start .plain []) savingTogether = some t := ⟨_, rfl⟩
  have hkeys : keysWithout guest (.start .plain []) savingTogether = ["-1"] := by decide
  obtain ⟨t', ht', hsame⟩ : ∃ t',
      run Cloud.step (.start { Firebase.plain with autoId := fun _ ↦ "-1" } [])
        (withoutUser guest (.start .plain []) savingTogether) = some t' ∧
      ∀ u, u ≠ guest → SameFor u t t' := by
    refine users_do_not_interfere (Cloud.idle_start _ _) ht fun n key hn ↦ ?_
    rw [hkeys] at hn
    exact (List.mem_singleton.mp (List.mem_of_getElem? hn)).symm
  exact ⟨t, t', ht, ht', hsame alice (by decide)⟩

end LandCap
