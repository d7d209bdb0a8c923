import LandCap.CapDatabase.Accounts

/-!
# What is stored and what is delivered

Three properties of every run of the cloud that starts with accounts (`Encodes`).  Each is proved
of the service, where it is a matter of a step at a time, and carried over by `lockstep_service`.

* `describable_run` — the database keeps its format: every branch is the encoding of an account.
* `delivered_complete` — an image that `getImages` delivers has a text, a link, a name and an id.
  The four optionals of `UserImage` are never nil for a picture the app has saved.
* `delivered_eq_of_id` — an id stands for one image: two images of a user that have been delivered,
  at whatever times and to whatever observers, are the same if their ids are.  `deleteUserImage`
  goes by the id alone, so what it removes is the image that was shown.

The last rests on `Shows`, every place in which a picture of a user can be: stored, about to be
stored, in the queue of an observer, delivered.  A step shows nothing new but the picture that has
just got its key.
-/

set_option autoImplicit false

namespace LandCap

open PathTree Runs

/-! ## Runs that start with accounts -/

/-- The database is the encoding of accounts. -/
def Describable (database : Database) : Prop := ∃ accounts, Encodes database accounts

/-- **The service follows every run of the cloud.** -/
theorem exists_service_run {s₀ s : Cloud} {accounts : UserID → Account} {as : List Action}
    (hs : s₀.Idle) (h : Encodes s₀.database accounts) (hplain : ∀ a ∈ as, PlainDelete a)
    (hrun : run Cloud.step s₀ as = some s) :
    ∃ v, run Service.step (.start s₀ accounts) as = some v ∧ s.Represents v :=
  lockstep_service.exists_run (represents_start hs h) (Meets.of_mem hplain) hrun

/-- **The database keeps its format.** -/
theorem describable_run {s₀ s : Cloud} {as : List Action} (hs : s₀.Idle)
    (h : Describable s₀.database) (hplain : ∀ a ∈ as, PlainDelete a)
    (hrun : run Cloud.step s₀ as = some s) : Describable s.database := by
  obtain ⟨accounts, h⟩ := h
  obtain ⟨v, -, hv⟩ := exists_service_run hs h hplain hrun
  exact ⟨v.accounts, hv.accounts⟩

/-- Two pictures are saved, and two observers are told of the first. -/
def watchingTwice : List Action :=
  savingTwo ++ [.call 2 (.getImages alice), .deliver 2, .deliver 2,
    .call 3 (.getImages alice), .deliver 3, .deliver 3]

theorem plainDelete_watchingTwice : ∀ a ∈ watchingTwice, PlainDelete a := by
  simp [watchingTwice, savingTwo, uploadSteps, PlainDelete]

theorem describable_nil : Describable [] := ⟨_, encodes_nil⟩

/-! ## The places a picture can be in -/

/-- The picture of `u` is stored, about to be stored, on its way to an observer, or delivered. -/
inductive Service.Shows (u : UserID) (v : Service) (e : SavedImage) : Prop
  | stored (h : e ∈ (v.accounts u).images)
  | written (id : ℕ) (h : v.inFlight id = some (.imageWrite u e))
  | queued (id : ℕ) (queue : List SavedImage) (h : v.inFlight id = some (.images u queue))
      (hmem : e ∈ queue)
  | delivered (h : Callback.image u e.userImage ∈ v.callbacks)

/-- The picture gets its key in this step. -/
def Service.Creates (u : UserID) (v : Service) (e : SavedImage) (j : Job) : Prop :=
  ∃ path, j = .downloadURL u path (.record e.text e.name) ∧
    e.id = v.firebase.autoId v.created ∧ e.link = v.firebase.downloadURL path

theorem SavedImage.userImage_injective : Function.Injective SavedImage.userImage := by
  rintro ⟨id, link, text, name⟩ ⟨id', link', text', name'⟩ h
  simpa [SavedImage.userImage, and_assoc, and_comm, and_left_comm] using h

section Step

variable {u : UserID} {v : Service} {id : ℕ} {j : Job} {e : SavedImage}

theorem Service.step_call {v' : Service} {c : Call} (h : v.step (.call id c) = some v') :
    v.inFlight id = none ∧ v' = { v with inFlight := Function.update v.inFlight id c.job } := by
  rw [Service.step] at h
  split at h
  · rename_i hn; exact ⟨hn, (Option.some.inj h).symm⟩
  · exact absurd h (by simp)

theorem Service.step_deliver {v' : Service} (h : v.step (.deliver id) = some v') :
    ∃ j, v.inFlight id = some j ∧ v' = v.perform id j := by
  obtain ⟨j, hj, rfl⟩ := Option.map_eq_some_iff.mp h
  exact ⟨j, hj, rfl⟩

theorem Service.step_fail {v' : Service} (h : v.step (.fail id) = some v') :
    v' = { v with inFlight := Function.update v.inFlight id none } := by
  obtain ⟨j, -, rfl⟩ := Option.map_eq_some_iff.mp h
  rfl

/-- A picture that is stored after a step was stored before, or the step stores it. -/
theorem Service.mem_written (h : e ∈ (v.written j u).images) :
    e ∈ (v.accounts u).images ∨ j = .imageWrite u e := by
  rw [Service.written] at h
  rcases eq_or_ne u j.user with rfl | hu
  · rw [Function.update_self] at h
    cases j <;> try exact Or.inl h
    case setupWrite user => exact absurd h (KeyedList.notMem_empty e)
    case imageWrite u image =>
      rcases KeyedList.mem_insert.mp h with rfl | ⟨hmem, -⟩
      · exact Or.inr rfl
      · exact Or.inl hmem
    case imageRemove u key => exact Or.inl (KeyedList.mem_erase.mp h).1
  · rw [Function.update_of_ne hu] at h
    exact Or.inl h

/-- An image that is called back comes from the head of a queue. -/
theorem Service.image_callback {userImage : UserImage}
    (h : Callback.image u userImage ∈ v.callback j) :
    ∃ e queue, j = .images u (e :: queue) ∧ userImage = e.userImage := by
  cases j <;> simp only [Service.callback, List.not_mem_nil] at h
  case limitRead w =>
    split at h
    · simp at h
    · split at h <;> simp at h
  case downloadURL w path success => cases success <;> simp at h
  case nameRead w => simp at h
  case images w queue =>
    cases queue with
    | nil => simp at h
    | cons e queue =>
      obtain ⟨rfl, rfl⟩ := Callback.image.inj (List.mem_singleton.mp h)
      exact ⟨e, queue, rfl, rfl⟩

/-- A record is about to be written because it has just got its key, or was before. -/
theorem Service.imageWrite_perform {i : ℕ}
    (h : (v.perform id j).inFlight i = some (.imageWrite u e)) :
    v.Creates u e j ∨ v.inFlight i = some (.imageWrite u e) := by
  rcases Service.inFlight_perform h with ⟨-, hf⟩ | ⟨-, j₀, hj₀, hn⟩
  · cases j <;> simp only [Service.followUp, reduceCtorEq, Option.some.injEq] at hf
    case setupRead user => split at hf <;> simp at hf
    case limitRead w =>
      split at hf
      · split at hf <;> simp at hf
      · simp at hf
    case downloadURL w path success =>
      cases success with
      | record text name =>
        obtain ⟨rfl, rfl⟩ := Job.imageWrite.inj (Option.some.inj hf)
        exact Or.inl ⟨path, rfl, rfl, rfl⟩
      | profileUrl => simp at hf
  · cases j₀ <;> simp only [Job.notify, reduceCtorEq] at hn
    case imageWrite w e' => exact Or.inr (hn ▸ hj₀)

/-- What an observer is about to receive is stored, or was about to be received before. -/
theorem Service.images_perform {i : ℕ} {queue : List SavedImage}
    (hid : v.inFlight id = some j)
    (h : (v.perform id j).inFlight i = some (.images u queue)) (he : e ∈ queue) :
    (∃ i' queue', v.inFlight i' = some (.images u queue') ∧ e ∈ queue') ∨
      e ∈ (v.accounts u).images ∨ e ∈ (v.written j u).images := by
  rcases Service.inFlight_perform h with ⟨-, hf⟩ | ⟨-, j₀, hj₀, hn⟩
  · cases j <;> simp only [Service.followUp, reduceCtorEq, Option.some.injEq] at hf
    case setupRead user => split at hf <;> simp at hf
    case limitRead w =>
      split at hf
      · split at hf <;> simp at hf
      · simp at hf
    case downloadURL w path success => cases success <;> simp at hf
    case imagesRead w =>
      obtain ⟨rfl, rfl⟩ := Job.images.inj hf
      exact Or.inr (Or.inl he)
    case images w queue₀ =>
      obtain ⟨rfl, rfl⟩ := Job.images.inj hf
      exact Or.inl ⟨id, queue₀, hid, List.mem_of_mem_tail he⟩
  · cases j₀ <;> simp only [Job.notify, reduceCtorEq, Job.images.injEq] at hn
    case images w queue₀ =>
      obtain ⟨rfl, rfl⟩ := hn
      rcases List.mem_append.mp he with he | he
      · exact Or.inl ⟨i, queue₀, hj₀, he⟩
      · exact Or.inr (Or.inr (List.mem_of_mem_filter he))

/-- **A step shows nothing new** but a picture that gets its key. -/
theorem Service.Shows.of_perform (hid : v.inFlight id = some j)
    (h : (v.perform id j).Shows u e) : v.Shows u e ∨ v.Creates u e j := by
  have hwritten : e ∈ (v.written j u).images → v.Shows u e := fun hmem ↦ by
    rcases Service.mem_written hmem with hmem | rfl
    · exact .stored hmem
    · exact .written id hid
  cases h with
  | stored h => exact Or.inl (hwritten h)
  | written i h =>
    rcases Service.imageWrite_perform h with hnew | hold
    · exact Or.inr hnew
    · exact Or.inl (.written i hold)
  | queued i queue h hmem =>
    rcases Service.images_perform hid h hmem with ⟨i', queue', h', hmem'⟩ | hmem | hmem
    · exact Or.inl (.queued i' queue' h' hmem')
    · exact Or.inl (.stored hmem)
    · exact Or.inl (hwritten hmem)
  | delivered h =>
    rcases List.mem_append.mp h with h | h
    · obtain ⟨e', queue, rfl, he⟩ := Service.image_callback h
      obtain rfl := SavedImage.userImage_injective he
      exact Or.inl (.queued id _ hid List.mem_cons_self)
    · exact Or.inl (.delivered h)

/-- A call shows nothing new, and neither does one that fails. -/
theorem Service.Shows.of_update {j : Option Job} (hwrite : j ≠ some (.imageWrite u e))
    (hqueue : ∀ queue, j ≠ some (.images u queue))
    (h : { v with inFlight := Function.update v.inFlight id j : Service }.Shows u e) :
    v.Shows u e := by
  cases h with
  | stored h => exact .stored h
  | written i h => exact .written i (update_eq_some_of_ne h hwrite).2
  | queued i queue h hmem => exact .queued i queue (update_eq_some_of_ne h (hqueue queue)).2 hmem
  | delivered h => exact .delivered h

end Step

/-! ## Every image is complete -/

/-- The images that have been delivered are pictures. -/
def Service.Complete (v : Service) : Prop :=
  ∀ u userImage, Callback.image u userImage ∈ v.callbacks →
    ∃ e : SavedImage, userImage = e.userImage

theorem Service.Complete.step {v v' : Service} {a : Action} (h : v.Complete)
    (hstep : v.step a = some v') : v'.Complete := by
  cases a with
  | call id c =>
    obtain ⟨-, rfl⟩ := Service.step_call hstep
    exact h
  | fail id =>
    obtain rfl := Service.step_fail hstep
    exact h
  | deliver id =>
    obtain ⟨j, -, rfl⟩ := Service.step_deliver hstep
    intro u userImage himage
    rcases List.mem_append.mp himage with himage | himage
    · obtain ⟨e, -, -, he⟩ := Service.image_callback himage
      exact ⟨e, he⟩
    · exact h u userImage himage

/-- **Every image that is delivered is complete.** -/
theorem delivered_complete {s₀ s : Cloud} {as : List Action} (hs : s₀.Idle)
    (h : Describable s₀.database) (hplain : ∀ a ∈ as, PlainDelete a)
    (hrun : run Cloud.step s₀ as = some s) {u : UserID} {userImage : UserImage}
    (himage : Callback.image u userImage ∈ s.callbacks) :
    userImage.text.isSome ∧ userImage.name.isSome ∧ userImage.imageURL.isSome ∧
      userImage.id.isSome := by
  obtain ⟨accounts, h⟩ := h
  obtain ⟨v, hv, hrep⟩ := exists_service_run hs h hplain hrun
  have hcomplete : v.Complete :=
    run_preserves (fun _ _ _ h hstep ↦ Service.Complete.step h hstep)
      (fun u userImage himage ↦ absurd himage (by simp [Service.start])) hv
  obtain ⟨e, rfl⟩ := hcomplete u userImage (hrep.callbacks ▸ himage)
  exact ⟨rfl, rfl, rfl, rfl⟩

/-- The run of the cloud is computed by the service. -/
theorem count_watchingTwice {s : Cloud}
    (hs : run Cloud.step (.start .growing []) watchingTwice = some s) :
    s.callbacks.count (.image alice tower.userImage) = 2 := by
  obtain ⟨v, hv, hrep⟩ :=
    exists_service_run (Cloud.idle_start _ _) encodes_nil plainDelete_watchingTwice hs
  have hcount : ∀ v ∈ run Service.step (.start (.start .growing []) fun _ ↦ .none) watchingTwice,
      v.callbacks.count (.image alice tower.userImage) = 2 := by decide +kernel
  exact hrep.callbacks ▸ hcount v hv

theorem delivered_complete_watchingTwice : ∃ s,
    run Cloud.step (.start .growing []) watchingTwice = some s ∧
      Callback.image alice tower.userImage ∈ s.callbacks ∧ tower.userImage.imageURL.isSome := by
  obtain ⟨s, hs⟩ : ∃ s, run Cloud.step (.start .growing []) watchingTwice = some s := ⟨_, rfl⟩
  have himage : Callback.image alice tower.userImage ∈ s.callbacks :=
    List.count_pos_iff.mp (by rw [count_watchingTwice hs]; decide)
  exact ⟨s, hs, himage, (delivered_complete (Cloud.idle_start _ _) describable_nil
    plainDelete_watchingTwice hs himage).2.2.1⟩

/-! ## An id is for one image -/

/-- `childByAutoId` makes no key twice, no picture of `u` has a key that is yet to be made, and no
two of them have the same. -/
structure Service.Fixed (u : UserID) (v : Service) : Prop where
  injective : Function.Injective v.firebase.autoId
  made : ∀ e, v.Shows u e → ∀ n, v.created ≤ n → e.id ≠ v.firebase.autoId n
  unique : ∀ e e', v.Shows u e → v.Shows u e' → e.id = e'.id → e = e'

theorem Service.Creates.eq {u : UserID} {v : Service} {j : Job} {e e' : SavedImage}
    (h : v.Creates u e j) (h' : v.Creates u e' j) : e = e' := by
  obtain ⟨path, rfl, hid, hlink⟩ := h
  obtain ⟨path', hj, hid', hlink'⟩ := h'
  obtain ⟨-, rfl, hsuccess⟩ := Job.downloadURL.inj hj
  obtain ⟨htext, hname⟩ := Success.record.inj hsuccess
  cases e
  cases e'
  simp_all

theorem Service.created_perform (v : Service) (id : ℕ) (j : Job) :
    v.created ≤ (v.perform id j).created := by
  cases j <;> try exact le_refl _
  case downloadURL u path success => cases success <;> simp [Service.perform]

theorem Service.Fixed.perform {u : UserID} {v : Service} {id : ℕ} {j : Job} (h : v.Fixed u)
    (hid : v.inFlight id = some j) : (v.perform id j).Fixed u where
  injective := h.injective
  made e he n hn := by
    rcases he.of_perform hid with he | ⟨path, rfl, hkey, -⟩
    · exact h.made e he n ((v.created_perform id j).trans hn)
    · rw [hkey]
      exact fun heq ↦ absurd (h.injective heq) (Nat.ne_of_lt hn)
  unique e e' he he' heq := by
    -- a key that has just been made is nobody else's
    rcases he.of_perform hid with he | hnew <;> rcases he'.of_perform hid with he' | hnew'
    · exact h.unique e e' he he' heq
    · obtain ⟨-, -, hkey, -⟩ := hnew'
      exact absurd (heq.trans hkey) (h.made e he _ le_rfl)
    · obtain ⟨-, -, hkey, -⟩ := hnew
      exact absurd (heq.symm.trans hkey) (h.made e' he' _ le_rfl)
    · exact hnew.eq hnew'

/-- **The step lemma.** -/
theorem Service.Fixed.step {u : UserID} {v v' : Service} {a : Action} (h : v.Fixed u)
    (hstep : v.step a = some v') : v'.Fixed u := by
  have hupdate : ∀ {id : ℕ} {j : Option Job}, (∀ e, j ≠ some (.imageWrite u e)) →
      (∀ queue, j ≠ some (.images u queue)) →
      { v with inFlight := Function.update v.inFlight id j : Service }.Fixed u :=
    fun hwrite hqueue ↦ ⟨h.injective, fun e he ↦ h.made e (he.of_update (hwrite e) hqueue),
      fun e e' he he' ↦ h.unique e e' (he.of_update (hwrite e) hqueue)
        (he'.of_update (hwrite e') hqueue)⟩
  cases a with
  | call id c =>
    obtain ⟨-, rfl⟩ := Service.step_call hstep
    refine hupdate (fun e ↦ ?_) fun queue ↦ ?_ <;> cases c <;> simp [Call.job]
  | fail id =>
    obtain rfl := Service.step_fail hstep
    exact hupdate (by simp) (by simp)
  | deliver id =>
    obtain ⟨j, hid, rfl⟩ := Service.step_deliver hstep
    exact h.perform hid

/-- Nothing is shown at first but what is stored. -/
theorem Service.fixed_start {u : UserID} {s : Cloud} {accounts : UserID → Account}
    (h : Encodes s.database accounts) (hkeys : UniqueKeys u s) :
    (Service.start s accounts).Fixed u := by
  have hstored : ∀ e, (Service.start s accounts).Shows u e → e ∈ (accounts u).images := by
    intro e he
    cases he with
    | stored h => exact h
    | written id h => exact absurd h (by simp [Service.start])
    | queued id queue h => exact absurd h (by simp [Service.start])
    | delivered h => exact absurd h (by simp [Service.start])
  refine ⟨hkeys.injective, fun e he n hn heq ↦ ?_, fun e e' he he' heq ↦ ?_⟩
  · have hkey := (h u).stored e (hstored e he)
    rw [snapshot_snapshot] at hkey
    refine e.record_ne_nil (hkey.symm.trans ?_)
    rw [heq]
    have hnil := hkeys.unused n hn
    rwa [imageAt, imagesRef_eq, List.append_assoc] at hnil
  · exact KeyedList.eq_of_key (hstored e he) (hstored e' he') heq

/-- **An id stands for one image.**  Two images of a user that have been delivered, at any times
and to any observers, are the same image if they have the same id. -/
theorem delivered_eq_of_id {u : UserID} {s₀ s : Cloud} {as : List Action} (hs : s₀.Idle)
    (h : Describable s₀.database) (hkeys : UniqueKeys u s₀) (hplain : ∀ a ∈ as, PlainDelete a)
    (hrun : run Cloud.step s₀ as = some s) {userImage userImage' : UserImage}
    (himage : Callback.image u userImage ∈ s.callbacks)
    (himage' : Callback.image u userImage' ∈ s.callbacks) (hid : userImage.id = userImage'.id) :
    userImage = userImage' := by
  obtain ⟨accounts, h⟩ := h
  obtain ⟨v, hv, hrep⟩ := exists_service_run hs h hplain hrun
  have hcomplete : v.Complete :=
    run_preserves (fun _ _ _ h hstep ↦ Service.Complete.step h hstep)
      (fun u userImage himage ↦ absurd himage (by simp [Service.start])) hv
  have hfixed : v.Fixed u :=
    run_preserves (fun _ _ _ h hstep ↦ Service.Fixed.step h hstep)
      (Service.fixed_start h hkeys) hv
  rw [hrep.callbacks] at himage himage'
  obtain ⟨e, rfl⟩ := hcomplete u userImage himage
  obtain ⟨e', rfl⟩ := hcomplete u userImage' himage'
  rw [hfixed.unique e e' (.delivered himage) (.delivered himage') (Option.some.inj hid)]

theorem uniqueKeys_growing (u : UserID) : UniqueKeys u (.start .growing []) where
  injective := Firebase.ascending_growing.increasing.injective
  unused _ _ := rfl

/-- Both observers are told the same of the first picture. -/
theorem delivered_eq_of_id_watchingTwice : ∃ s,
    run Cloud.step (.start .growing []) watchingTwice = some s ∧
      s.callbacks.count (.image alice tower.userImage) = 2 ∧
      ∀ userImage, Callback.image alice userImage ∈ s.callbacks → userImage.id = some tower.id →
        userImage = tower.userImage := by
  obtain ⟨s, hs⟩ : ∃ s, run Cloud.step (.start .growing []) watchingTwice = some s := ⟨_, rfl⟩
  have htower : Callback.image alice tower.userImage ∈ s.callbacks :=
    List.count_pos_iff.mp (by rw [count_watchingTwice hs]; decide)
  exact ⟨s, hs, count_watchingTwice hs, fun userImage himage hid ↦
    delivered_eq_of_id (Cloud.idle_start _ _) describable_nil (uniqueKeys_growing alice)
      plainDelete_watchingTwice hs himage htower hid⟩

end LandCap
