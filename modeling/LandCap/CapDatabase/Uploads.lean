import LandCap.CapDatabase.Basic

/-!
# Uploaded pictures and the records that point to them

`addNew` stores the picture under a name taken from the wall clock and, when the upload is over,
writes a record with the download URL.  Two calls that choose one path end with two records and
one object: whichever upload is carried out last decides the picture of both.

`Traced` is the cloud with two history variables, the call behind every name and the `addNew` call
behind every record; nothing the cloud does depends on them.  `PicturesKept` says that the object a
record points to holds the bytes of the call that wrote the record.

`paths_and_pictures_iff` is the exact condition on the clocks.  The paths of a run's calls are
pairwise distinct, and every record keeps its picture, exactly if no two `addNew` calls and no two
`updateProfileImage` calls are made while the devices' clocks show the same second.  A picture and
a profile photo never clash, because they go to different folders.
-/

set_option autoImplicit false

namespace LandCap

open PathTree Runs

/-! ## Paths -/

/-- The path an upload goes to. -/
def Call.path : Call → Option (List String)
  | .addNew userID _ text name now => some (uploadPath userID (.record text name) now)
  | .updateProfileImage userID _ now => some (uploadPath userID .profileUrl now)
  | _ => none

/-- `a` is not a call, or an upload of `u`. -/
def UploadCall (u : UserID) : Action → Prop
  | .call _ (.addNew v ..) | .call _ (.updateProfileImage v ..) => v = u
  | .call .. => False
  | .deliver _ | .fail _ => True

/-- The calls of a run. -/
def calls (as : List Action) : List Call :=
  as.filterMap fun
    | .call _ c => some c
    | _ => none

/-- The two calls put a photo of one kind, and their clocks show the same second. -/
def Clash : Call → Call → Prop
  | .addNew _ _ _ _ now, .addNew _ _ _ _ now' => SameSecond now now'
  | .updateProfileImage _ _ now, .updateProfileImage _ _ now' => SameSecond now now'
  | _, _ => False

theorem uploadPath_record (u : UserID) (text name : String) (now : Clock) :
    uploadPath u (.record text name) now = ["users", u.val, fileName now] := by
  have h := components_append_slash "users" u.val
  rw [components_userID, show components "users" = ["users"] by decide] at h
  rw [uploadPath, uploadFolder, child, child, components_fileName]
  exact congrArg (· ++ _) h

theorem uploadPath_profileUrl (u : UserID) (now : Clock) :
    uploadPath u .profileUrl now = ["users", u.val, "profileImage", fileName now] := by
  have hs : "users/" ++ u.val ++ "/profileImage" = "users/" ++ u.val ++ "/" ++ "profileImage" := by
    rw [String.append_assoc, String.append_assoc, String.append_assoc]; rfl
  rw [uploadPath, uploadFolder, hs, child_interpolated, userRef_eq, child, components_fileName,
    show components "profileImage" = ["profileImage"] by decide]
  rfl

/-- **Two uploads of one user go to one path** exactly if they clash. -/
theorem path_eq_iff {u : UserID} {i j : ℕ} {c d : Call} (hc : UploadCall u (.call i c))
    (hd : UploadCall u (.call j d)) : c.path = d.path ↔ Clash c d := by
  cases c <;> try exact hc.elim
  all_goals
    cases d <;> try exact hd.elim
    all_goals
      obtain rfl := hc
      obtain rfl := hd
      simp [Call.path, Clash, uploadPath_record, uploadPath_profileUrl, fileName_eq_iff]

/-! ## The cloud with its history -/

/-- The cloud, the call behind each name, and the call that wrote each record. -/
structure Traced where
  cloud : Cloud
  calls : ℕ → Option Call
  author : String → Option Call

/-- A cloud without a history. -/
def Traced.of (s : Cloud) : Traced := { cloud := s, calls := fun _ ↦ none, author := fun _ ↦ none }

/-- The record the step `t` writes becomes the record of the call behind `id`. -/
def Traced.sign (t : Traced) (id : ℕ) : Option Task → String → Option Call
  | some (.imageWrite _ key ..) => Function.update t.author key (t.calls id)
  | _ => t.author

/-- A step of the cloud, and what it adds to the history. -/
def Traced.step (t : Traced) (a : Action) : Option Traced :=
  (t.cloud.step a).map fun s ↦
    match a with
    | .call id c => { t with cloud := s, calls := Function.update t.calls id (some c) }
    | .deliver id => { t with cloud := s, author := t.sign id (t.cloud.inFlight id) }
    | .fail _ => { t with cloud := s }

/-- The record under `key` is the one the call writes, and the object it points to holds the
picture of the call. -/
def HoldsPicture (s : Cloud) (key : String) : Call → Prop
  | .addNew userID image text name now =>
    snapshot (imagesRef userID ++ [key]) s.database
      = imageRecord (s.firebase.downloadURL (uploadPath userID (.record text name) now)) text name ∧
    s.storage (uploadPath userID (.record text name) now) = some image
  | _ => False

/-- Every record keeps its own picture. -/
def PicturesKept (t : Traced) : Prop :=
  ∀ key c, t.author key = some c → HoldsPicture t.cloud key c

/-- The paths the calls choose are pairwise distinct. -/
def PathsDistinct (cs : List Call) : Prop := (cs.map Call.path).Nodup

/-! ## The invariant -/

/-- The photo the call `c` puts at `path` is what is stored there. -/
def Stored (s : Cloud) (c : Call) (v : UserID) (path : List String) (success : Success) : Prop :=
  ∃ data, c.task = some (.putData v path data success) ∧ s.storage path = some data

/-- The step in flight goes on with what the call `c` has begun. -/
def Continues (s : Cloud) (c : Call) : Task → Prop
  | .putData v path data success => c.task = some (.putData v path data success)
  | .downloadURL v path success => Stored s c v path success
  | .imageWrite v _ link text name => ∃ path, Stored s c v path (.record text name) ∧
      link = s.firebase.downloadURL path
  | .profileUrlWrite .. => True
  | _ => False

/-- Every step in flight goes on with its call, and every record keeps its picture; `cs` is the
list of calls of the run. -/
structure Attributed (u : UserID) (cs : List Call) (t : Traced) : Prop where
  inFlight : ∀ id task, t.cloud.inFlight id = some task → task.user = u ∧
    ∃ c ∈ cs, t.calls id = some c ∧ Continues t.cloud c task
  author : ∀ key c, t.author key = some c → c ∈ cs ∧ c.user = u
  pictures : PicturesKept t

theorem attributed_of {u : UserID} {cs : List Call} {s : Cloud} (hs : s.Idle) :
    Attributed u cs (.of s) where
  inFlight id task h := by simp [Traced.of, hs.inFlight] at h
  author key c h := by simp [Traced.of] at h
  pictures key c h := by simp [Traced.of] at h

theorem Continues.mono {s s' : Cloud} {c : Call} {t : Task} (h : Continues s c t)
    (hf : s'.firebase = s.firebase)
    (hs : ∀ v path success, Stored s c v path success → Stored s' c v path success) :
    Continues s' c t := by
  cases t <;> try exact h
  case downloadURL v path success => exact hs v path success h
  case imageWrite v key link text name =>
    obtain ⟨path, hp, hl⟩ := h
    exact ⟨path, hs _ _ _ hp, hf ▸ hl⟩

theorem holdsPicture_iff {s : Cloud} {key : String} {c : Call} :
    HoldsPicture s key c ↔ ∃ v path text name, Stored s c v path (.record text name) ∧
      snapshot (imagesRef v ++ [key]) s.database
        = imageRecord (s.firebase.downloadURL path) text name := by
  refine ⟨fun h ↦ ?_, fun ⟨v, path, text, name, ⟨data, ht, hs⟩, hr⟩ ↦ ?_⟩
  · cases c <;> try exact h.elim
    case addNew v image text name now => exact ⟨v, _, text, name, ⟨image, rfl, h.2⟩, h.1⟩
  · cases c <;> simp [Call.task] at ht
    case addNew v' image text' name' now =>
      obtain ⟨rfl, rfl, rfl, rfl, rfl⟩ := ht
      exact ⟨hr, hs⟩

section Step

variable {u : UserID} {cs : List Call}

/-- The task of an upload, from its path. -/
theorem Call.path_of_task {c : Call} {v : UserID} {path : List String} {data : Data}
    {success : Success} (h : c.task = some (.putData v path data success)) :
    c.path = some path := by
  cases c <;> simp [Call.task, Call.path] at h ⊢ <;> exact h.2.1

/-- When paths are distinct, `putData` does not replace the picture of another call. -/
theorem Stored.putData (hcs : PathsDistinct cs) {s : Cloud} {id : ℕ} {c c' : Call}
    (hc : c ∈ cs) (hc' : c' ∈ cs) {v v' : UserID} {path path' : List String} {data : Data}
    {success success' : Success} (ht : c.task = some (.putData v path data success))
    (h : Stored s c' v' path' success') :
    Stored (s.perform id (.putData v path data success)) c' v' path' success' := by
  obtain ⟨data', ht', hs'⟩ := h
  refine ⟨data', ht', ?_⟩
  show Function.update s.storage path (some data) path' = some data'
  rcases eq_or_ne path' path with rfl | hne
  · -- the two calls are one call, so the bytes are the same
    obtain rfl : c = c' := List.inj_on_of_nodup_map hcs hc hc'
      ((Call.path_of_task ht).trans (Call.path_of_task ht').symm)
    rw [ht] at ht'
    obtain ⟨-, -, rfl, -⟩ : v = v' ∧ True ∧ data = data' ∧ success = success' := by
      simpa using ht'
    rw [Function.update_self]
  · rw [Function.update_of_ne hne, hs']

/-- **A step keeps every stored picture**, whoever's picture it stores itself. -/
theorem Attributed.stored {t : Traced} (h : Attributed u cs t) (hcs : PathsDistinct cs) {id : ℕ}
    {task : Task} (hid : t.cloud.inFlight id = some task) {c' : Call} (hc' : c' ∈ cs) {v' : UserID}
    {path' : List String} {success' : Success} (hs : Stored t.cloud c' v' path' success') :
    Stored (t.cloud.perform id task) c' v' path' success' := by
  obtain ⟨-, c, hc, -, hk⟩ := h.inFlight id task hid
  cases task <;> try exact hs
  case putData v path data success => exact hs.putData hcs hc hc' hk

/-- An upload has no observer in flight, so a notification changes nothing. -/
theorem Attributed.inFlight_of_perform {t : Traced} (h : Attributed u cs t) {id j : ℕ}
    {task : Task} (hne : j ≠ id) :
    (t.cloud.perform id task).inFlight j = t.cloud.inFlight j := by
  refine Cloud.perform_inFlight_eq task hne fun v q hj ↦ ?_
  obtain ⟨-, c, -, -, hk⟩ := h.inFlight j _ hj
  exact hk

/-- What follows a step goes on with the call behind it. -/
theorem Continues.followUp {s : Cloud} {c : Call} {task task' : Task} (id : ℕ)
    (h : Continues s c task) (hf : s.followUp task = some task') :
    Continues (s.perform id task) c task' := by
  cases Cloud.followUp_cases hf <;> try exact h.elim
  case downloadURL v path data success => exact ⟨data, h, Function.update_self ..⟩
  case imageWrite v path text name => exact ⟨path, h, rfl⟩
  case profileUrlWrite v path => trivial

/-- A step of an upload leaves the records under the other keys alone. -/
theorem snapshot_record_write {s : Cloud} {c : Call} {task : Task} (h : Continues s c task)
    (hu : task.user = u) {key : String}
    (hk : ∀ link text name, task ≠ .imageWrite u key link text name) :
    snapshot (imagesRef u ++ [key]) (task.write s.database)
      = snapshot (imagesRef u ++ [key]) s.database := by
  cases task <;> try first | rfl | exact h.elim
  case profileUrlWrite v url =>
    obtain rfl : v = u := hu
    rw [imagesRef_eq, ← snapshot_snapshot (userRef v ++ _), ← snapshot_snapshot (userRef v ++ _),
      Task.snapshot_write_of_key_ne (by simp) (by simp [Task.writtenKey])]
  case imageWrite v key' link text name =>
    obtain rfl : v = u := hu
    have hne : key' ≠ key := fun he ↦ hk link text name (he ▸ rfl)
    exact snapshot_setValue_of_not_meet (not_meet_append_cons _ hne) _ _

theorem Traced.sign_eq_some {t : Traced} {id : ℕ} {task : Task} {key : String} {c : Call}
    (h : t.sign id (some task) key = some c) :
    (∃ v link text name, task = .imageWrite v key link text name ∧ t.calls id = some c) ∨
      (∀ v link text name, task ≠ .imageWrite v key link text name) ∧ t.author key = some c := by
  cases task <;> try exact Or.inr ⟨by simp, h⟩
  case imageWrite v key' link text name =>
    rw [Traced.sign] at h
    rcases update_eq_some h with ⟨rfl, hcall⟩ | ⟨hne, hold⟩
    · exact Or.inl ⟨v, link, text, name, rfl, hcall⟩
    · exact Or.inr ⟨by simp [hne.symm], hold⟩

theorem attributed_deliver {t : Traced} (h : Attributed u cs t) (hcs : PathsDistinct cs) {id : ℕ}
    {task : Task} (hid : t.cloud.inFlight id = some task) :
    Attributed u cs
      { t with cloud := t.cloud.perform id task, author := t.sign id (some task) } where
  inFlight j task' hj := by
    obtain ⟨hu, c, hc, hcalls, hk⟩ := h.inFlight id task hid
    rcases eq_or_ne j id with rfl | hne
    · rw [Cloud.perform_inFlight_self] at hj
      exact ⟨(Cloud.user_followUp hj).trans hu, c, hc, hcalls, hk.followUp j hj⟩
    · have hold := (h.inFlight_of_perform hne).symm.trans hj
      obtain ⟨hu', c', hc', hcalls', hk'⟩ := h.inFlight j task' hold
      have hnext : Continues (t.cloud.perform id task) c' task' :=
        hk'.mono rfl fun _ _ _ ↦ h.stored hcs hid hc'
      exact ⟨hu', c', hc', hcalls', hnext⟩
  author key c' hkey := by
    rcases Traced.sign_eq_some hkey with ⟨v, link, text, name, rfl, hc⟩ | ⟨-, hold⟩
    · obtain ⟨hu, c, hmem, hcalls, path, ⟨data, ht, -⟩, -⟩ := h.inFlight id _ hid
      obtain rfl : c = c' := Option.some.inj (hcalls.symm.trans hc)
      exact ⟨hmem, (Call.user_task ht).symm.trans hu⟩
    · exact h.author key c' hold
  pictures key c' hkey := by
    rw [holdsPicture_iff]
    rcases Traced.sign_eq_some hkey with ⟨v, link, text, name, rfl, hc⟩ | ⟨hne, hold⟩
    · obtain ⟨hu, c, hmem, hcalls, path, hs, rfl⟩ := h.inFlight id _ hid
      obtain rfl : c = c' := Option.some.inj (hcalls.symm.trans hc)
      exact ⟨v, path, text, name, h.stored hcs hid hmem hs, snapshot_setValue_self _ _ _⟩
    · obtain ⟨hmem, huser⟩ := h.author key c' hold
      obtain ⟨v, path, text, name, hs, hr⟩ := holdsPicture_iff.mp (h.pictures key c' hold)
      obtain ⟨hu, c, -, -, hk⟩ := h.inFlight id task hid
      obtain rfl : v = u := by
        obtain ⟨data, ht, -⟩ := hs
        exact (Call.user_task ht).trans huser
      refine ⟨v, path, text, name, h.stored hcs hid hmem hs, ?_⟩
      rw [Cloud.perform_database, snapshot_record_write hk hu (hne v)]
      exact hr

/-- Changing what a single name waits for, to a step that goes on with the call behind it. -/
theorem Attributed.update {t : Traced} (h : Attributed u cs t) (id : ℕ) {task : Option Task}
    {calls : ℕ → Option Call} (hcalls : ∀ j, j ≠ id → calls j = t.calls j)
    (htask : ∀ task', task = some task' → task'.user = u ∧
      ∃ c ∈ cs, calls id = some c ∧ Continues t.cloud c task') :
    Attributed u cs { t with
      cloud := { t.cloud with inFlight := Function.update t.cloud.inFlight id task }
      calls := calls } where
  inFlight j task' hj := by
    rcases update_eq_some hj with ⟨rfl, hnew⟩ | ⟨hne, hj⟩
    · obtain ⟨hu, c, hc, hcall, hk⟩ := htask task' hnew
      exact ⟨hu, c, hc, hcall, hk.mono rfl fun _ _ _ hs ↦ hs⟩
    · obtain ⟨hu, c, hc, hcall, hk⟩ := h.inFlight j task' hj
      exact ⟨hu, c, hc, (hcalls j hne).trans hcall, hk.mono rfl fun _ _ _ hs ↦ hs⟩
  author := h.author
  pictures key c hkey := by
    rw [holdsPicture_iff]
    exact holdsPicture_iff.mp (h.pictures key c hkey)

theorem attributed_call {t : Traced} (h : Attributed u cs t) {id : ℕ} {c : Call} (hc : c ∈ cs)
    (hu : UploadCall u (.call id c)) :
    Attributed u cs { t with
      cloud := { t.cloud with inFlight := Function.update t.cloud.inFlight id c.task }
      calls := Function.update t.calls id (some c) } := by
  refine h.update id (fun j hj ↦ Function.update_of_ne hj _ _) fun task htask ↦ ?_
  refine ⟨?_, c, hc, Function.update_self .., ?_⟩ <;> cases c <;> try exact hu.elim
  all_goals
    obtain rfl := Option.some.inj htask
    first | exact hu | rfl

theorem attributed_fail {t : Traced} (h : Attributed u cs t) (id : ℕ) :
    Attributed u cs { t with
      cloud := { t.cloud with inFlight := Function.update t.cloud.inFlight id none } } :=
  h.update id (fun _ _ ↦ rfl) (by simp)

/-- **The step lemma**: with distinct paths, a step keeps the pictures of all records. -/
theorem attributed_step {t t' : Traced} {a : Action} (h : Attributed u cs t)
    (hcs : PathsDistinct cs) (ha : UploadCall u a ∧ ∀ id c, a = .call id c → c ∈ cs)
    (hstep : t.step a = some t') : Attributed u cs t' := by
  obtain ⟨s, hs, rfl⟩ := Option.map_eq_some_iff.mp hstep
  cases a with
  | call id c =>
    obtain ⟨-, rfl⟩ := Cloud.step_call hs
    exact attributed_call h (ha.2 id c rfl) ha.1
  | deliver id =>
    obtain ⟨task, hid, rfl⟩ := Cloud.step_deliver hs
    simp only [hid]
    exact attributed_deliver h hcs hid
  | fail id =>
    obtain rfl := Cloud.step_fail hs
    exact attributed_fail h id

end Step

/-! ## The condition on the clocks -/

theorem mem_calls {c : Call} {as : List Action} : c ∈ calls as ↔ ∃ id, .call id c ∈ as := by
  rw [calls, List.mem_filterMap]
  refine ⟨fun ⟨a, ha, hc⟩ ↦ ?_, fun ⟨id, ha⟩ ↦ ⟨_, ha, rfl⟩⟩
  cases a <;> simp at hc
  case call id c' => exact ⟨id, hc ▸ ha⟩

/-- The paths of a run's calls are distinct exactly if no two of the calls clash. -/
theorem pathsDistinct_iff {u : UserID} {as : List Action} (h : ∀ a ∈ as, UploadCall u a) :
    PathsDistinct (calls as) ↔ (calls as).Pairwise fun c d ↦ ¬Clash c d := by
  rw [PathsDistinct, List.Nodup, List.pairwise_map]
  refine List.Pairwise.iff_of_mem fun {c d} hc hd ↦ not_congr ?_
  obtain ⟨i, hi⟩ := mem_calls.mp hc
  obtain ⟨j, hj⟩ := mem_calls.mp hd
  exact path_eq_iff (h _ hi) (h _ hj)

/-- **With distinct paths every record keeps its picture**, in every state a run of uploads
reaches. -/
theorem picturesKept_of_pathsDistinct {u : UserID} {s₀ : Cloud} {as : List Action} {t : Traced}
    (hs : s₀.Idle) (has : ∀ a ∈ as, UploadCall u a) (hrun : run Traced.step (.of s₀) as = some t)
    (hcs : PathsDistinct (calls as)) : PicturesKept t := by
  have hmeets : Meets Traced.step
      (fun _ a ↦ UploadCall u a ∧ ∀ id c, a = .call id c → c ∈ calls as) (.of s₀) as := by
    refine Meets.of_mem fun a ha ↦ ⟨has a ha, ?_⟩
    rintro id c rfl
    exact mem_calls.mpr ⟨id, ha⟩
  exact (run_invariant (fun _ _ _ hi hp hstep ↦ attributed_step hi hcs hp hstep)
    (attributed_of hs) hmeets hrun).pictures

/-- **The exact condition.**  In a run of one user's uploads the paths are pairwise distinct and
every record keeps its own picture if and only if no two calls of one kind are made in the same
second of the devices' clocks.  With Gregorian calendars, that is the same second of local time
(`sameSecond_iff`). -/
theorem paths_and_pictures_iff {u : UserID} {s₀ : Cloud} {as : List Action} {t : Traced}
    (hs : s₀.Idle) (has : ∀ a ∈ as, UploadCall u a) (hrun : run Traced.step (.of s₀) as = some t) :
    PathsDistinct (calls as) ∧ PicturesKept t ↔ (calls as).Pairwise fun c d ↦ ¬Clash c d := by
  rw [← pathsDistinct_iff has]
  exact ⟨And.left, fun hcs ↦ ⟨hcs, picturesKept_of_pathsDistinct hs has hrun hcs⟩⟩

/-! ## The hour that is repeated -/

/-- New York's offset around the end of summer time on 4 November 2018, 06:00 UTC. -/
def newYork (second : ℤ) : ℤ := if second < 1541311200 then -14400 else -18000

/-- Half past one on that night, for the first time. -/
def halfPastOne : Clock :=
  { instant := 1541309400000, zone := newYork, calendar := gregorian }

/-- An hour later it is half past one again. -/
def halfPastOneAgain : Clock :=
  { instant := 1541313000000, zone := newYork, calendar := gregorian }

/-- A minute after that. -/
def aMinuteLater : Clock :=
  { instant := 1541313060000, zone := newYork, calendar := gregorian }

/-- The steps of an upload: the call, the upload, the download URL and the record. -/
def uploadSteps (id : ℕ) (c : Call) : List Action :=
  [.call id c, .deliver id, .deliver id, .deliver id]

/-- Two pictures and a profile photo; the photo and the second picture share a second. -/
def uploadsApart : List Action :=
  uploadSteps 0 (.addNew alice [1] "text" "name" halfPastOne) ++
    uploadSteps 1 (.addNew alice [2] "text" "name" aMinuteLater) ++
    uploadSteps 2 (.updateProfileImage alice [3] aMinuteLater)

theorem paths_and_pictures_uploadsApart : ∃ t, run Traced.step (.of (.start .plain [])) uploadsApart
    = some t ∧ PathsDistinct (calls uploadsApart) ∧ PicturesKept t := by
  obtain ⟨t, ht⟩ : ∃ t, run Traced.step (.of (.start .plain [])) uploadsApart = some t := ⟨_, rfl⟩
  refine ⟨t, ht, (paths_and_pictures_iff (u := alice) (Cloud.idle_start _ _) ?_ ht).mpr ?_⟩
  · simp [uploadsApart, uploadSteps, UploadCall]
  · have hsecond : ¬SameSecond halfPastOne aMinuteLater := by decide
    simp [uploadsApart, uploadSteps, calls, Clash, hsecond]

/-- A picture saved before the clocks are put back. -/
def earlierPicture : Call := .addNew alice [1] "text" "name" halfPastOne

/-- A picture saved in the hour that is repeated. -/
def laterPicture : Call := .addNew alice [2] "text" "name" halfPastOneAgain

/-- **A picture can be replaced.**  A picture saved in the hour that the clocks repeat takes the
place of the one saved an hour before. -/
theorem not_pictures_kept : ¬∀ (u : UserID) (s₀ : Cloud) (as : List Action) (t : Traced),
    s₀.Idle → (∀ a ∈ as, UploadCall u a) → run Traced.step (.of s₀) as = some t →
    PathsDistinct (calls as) ∧ ((∀ id, t.cloud.inFlight id = none) → PicturesKept t) := by
  intro h
  obtain ⟨t, ht⟩ : ∃ t, run Traced.step (.of (.start .plain []))
    (uploadSteps 0 earlierPicture ++ uploadSteps 1 laterPicture) = some t := ⟨_, rfl⟩
  have hkept := (h alice _ _ t (Cloud.idle_start _ _)
    (by simp [uploadSteps, UploadCall, earlierPicture, laterPicture]) ht).2
  obtain rfl := Option.some.inj ht
  have hauthor : Function.update (Function.update (fun _ ↦ none) (Firebase.plain.autoId 0)
      (some earlierPicture)) (Firebase.plain.autoId 1) (some laterPicture) "-0"
        = some earlierPicture := rfl
  have hpicture := hkept (fun id ↦ match id with | 0 => rfl | 1 => rfl | _ + 2 => rfl) "-0"
    earlierPicture hauthor
  exact absurd hpicture.2 (by decide)

end LandCap
