import LandCap.CapDatabase.Basic

/-!
# Provisioning: `setupUser` against the other writers of a user's branch

`setupUser` looks whether `users/u` holds a dictionary and, if it does not, replaces the whole
branch by a fresh record.  The look and the replacement are separate steps and nobody waits for
the second one, so by the time it is carried out the branch may hold a quota that has been drawn
on, saved images and a profile photo: `not_provisioning_safe` has two devices sign in at once, and
the slower one refills the quota.

`keeps_iff` says exactly which runs are safe.  While a replacement is on its way, nothing may be
written that it would undo (`Task.Spares`): no image record, no profile photo, no other limit, and
no name into an empty branch, which the replacement would then find existing.  Two replacements may
be on their way together only with one limit.  And since `as? NSDictionary` takes a bare value for
a missing node, the look must not find one.

The invariant is `Fresh`: the branch a replacement is on its way to is empty, or has the limit of
the replacement and nothing else that could get lost.  A step keeps it exactly if it is
`Undisturbed` (`fresh_step_iff`), and it holds exactly where no next step of `setupUser` can do
damage (`keepsNext_iff_fresh`).
-/

set_option autoImplicit false

namespace LandCap

open PathTree Runs

/-! ## What is to be kept -/

/-- `s` is about to carry out a step of a `setupUser` call for `u` when it does `a`. -/
def StepsSetup (u : UserID) (s : Cloud) : Action → Prop
  | .deliver id => ∃ user, user.Key = u ∧
      (s.inFlight id = some (.setupRead user) ∨ s.inFlight id = some (.setupWrite user))
  | _ => False

/-- The photo limit of `u` is unchanged, and no image record and no profile photo is lost. -/
structure DataKept (u : UserID) (old new : Database) : Prop where
  photoLimit : snapshot (photoLimitRef u) new = snapshot (photoLimitRef u) old
  images : ∀ e ∈ snapshot (imagesRef u) old, e ∈ snapshot (imagesRef u) new
  profileUrl : ∀ e ∈ snapshot (profileUrlRef u) old, e ∈ snapshot (profileUrlRef u) new

/-- Once `users/u` exists, a step of `setupUser` keeps the data of `u`. -/
def Keeps (u : UserID) (s : Cloud) (a : Action) : Prop :=
  StepsSetup u s a → snapshot (userRef u) s.database ≠ [] →
    ∀ s', s.step a = some s' → DataKept u s.database s'.database

/-- Whatever step of `setupUser` comes next, it keeps the data of `u`. -/
def KeepsNext (u : UserID) (s : Cloud) : Prop := ∀ a, Keeps u s a

/-! ## The condition -/

/-- The step leaves nothing in the branch that a replacement by `user` would undo. -/
def Task.Spares (user : CapUser) (node : Database) : Task → Prop
  | .limitWrite _ value => value = user.photoLimit
  | .nameWrite .. => node ≠ []
  | .profileUrlWrite .. | .imageWrite .. => False
  | _ => True

/-- The step `t` of the call `id` does not come between the two steps of a `setupUser` for `u`. -/
def UndisturbedTask (u : UserID) (s : Cloud) (id : ℕ) : Task → Prop
  | .setupRead user => user.Key = u →
    snapshot (userRef u) s.database = [] ∨ HasChildren (snapshot (userRef u) s.database)
  | .setupWrite user => user.Key = u →
    ∀ j user', j ≠ id → s.inFlight j = some (.setupWrite user') → user'.Key = u →
      user.photoLimit = user'.photoLimit
  | t => t.user = u → ∀ j user, s.inFlight j = some (.setupWrite user) → user.Key = u →
    t.Spares user (snapshot (userRef u) s.database)

/-- `a` does not come between the two steps of a `setupUser` call for `u`. -/
def Undisturbed (u : UserID) (s : Cloud) : Action → Prop
  | .deliver id => ∀ t, s.inFlight id = some t → UndisturbedTask u s id t
  | _ => True

/-! ## Fresh branches -/

/-- The branch is empty, or has the limit of `user` and nothing that a replacement would lose. -/
def IsFresh (user : CapUser) (node : Database) : Prop :=
  node = [] ∨ snapshot ["photoLimit"] node = [([], .int user.photoLimit)] ∧
    snapshot ["images"] node = [] ∧ snapshot ["profileUrl"] node = []

/-- While a replacement of `users/u` is on its way, the branch is fresh for it. -/
def Fresh (u : UserID) (s : Cloud) : Prop :=
  ∀ j user, s.inFlight j = some (.setupWrite user) → user.Key = u →
    IsFresh user (snapshot (userRef u) s.database)

theorem snapshot_dictionary_images (user : CapUser) : snapshot ["images"] user.dictionary = [] := by
  cases h : user.Name <;> simp [CapUser.dictionary, h, snapshot, below]

theorem snapshot_dictionary_profileUrl (user : CapUser) :
    snapshot ["profileUrl"] user.dictionary = [] := by
  cases h : user.Name <;> simp [CapUser.dictionary, h, snapshot, below]

theorem dictionary_ne_nil (user : CapUser) : user.dictionary ≠ [] := by
  intro h
  have hlimit := snapshot_dictionary_photoLimit user
  rw [h] at hlimit
  exact absurd hlimit (by simp [snapshot])

theorem ne_nil_of_snapshot_ne_nil {key : String} {node : Database} (h : snapshot [key] node ≠ []) :
    node ≠ [] := by
  rintro rfl
  exact h rfl

theorem IsFresh.images {user : CapUser} {node : Database} (h : IsFresh user node) :
    snapshot ["images"] node = [] := by
  rcases h with rfl | h
  · rfl
  · exact h.2.1

theorem IsFresh.profileUrl {user : CapUser} {node : Database} (h : IsFresh user node) :
    snapshot ["profileUrl"] node = [] := by
  rcases h with rfl | h
  · rfl
  · exact h.2.2

/-- What another replacement has written is fresh if the limits are the same. -/
theorem isFresh_dictionary_iff {user user' : CapUser} :
    IsFresh user' user.dictionary ↔ user.photoLimit = user'.photoLimit := by
  rw [IsFresh, or_iff_right (dictionary_ne_nil user), snapshot_dictionary_photoLimit,
    snapshot_dictionary_images, snapshot_dictionary_profileUrl]
  simp

/-- **Replacing a branch loses nothing** exactly if the branch is fresh. -/
theorem dataKept_setupWrite_iff {user : CapUser} {database : Database}
    (hne : snapshot (userRef user.Key) database ≠ []) :
    DataKept user.Key database ((Task.setupWrite user).write database) ↔
      IsFresh user (snapshot (userRef user.Key) database) := by
  have hold : ∀ key, snapshot (userRef user.Key ++ [key]) database
      = snapshot [key] (snapshot (userRef user.Key) database) :=
    fun key ↦ (snapshot_snapshot _ _ _).symm
  have hnew : ∀ key, snapshot (userRef user.Key ++ [key])
      ((Task.setupWrite user).write database) = snapshot [key] user.dictionary := by
    intro key
    rw [← snapshot_snapshot, snapshot_setupWrite]
  rw [IsFresh, or_iff_right hne]
  constructor
  · rintro ⟨hlimit, himages, hprofile⟩
    rw [photoLimitRef_eq, hold, hnew, snapshot_dictionary_photoLimit] at hlimit
    rw [imagesRef_eq, hold, hnew, snapshot_dictionary_images] at himages
    rw [profileUrlRef_eq, hold, hnew, snapshot_dictionary_profileUrl] at hprofile
    exact ⟨hlimit.symm, List.eq_nil_iff_forall_not_mem.mpr fun e he ↦
        List.not_mem_nil (himages e he),
      List.eq_nil_iff_forall_not_mem.mpr fun e he ↦ List.not_mem_nil (hprofile e he)⟩
  · rintro ⟨hlimit, himages, hprofile⟩
    refine ⟨?_, ?_, ?_⟩
    · rw [photoLimitRef_eq, hold, hnew, snapshot_dictionary_photoLimit, hlimit]
    · rw [imagesRef_eq, hold, himages]
      exact fun e he ↦ absurd he List.not_mem_nil
    · rw [profileUrlRef_eq, hold, hprofile]
      exact fun e he ↦ absurd he List.not_mem_nil

/-- **The invariant is what the next step needs**: no step of `setupUser` can do damage exactly
where every branch that is about to be replaced is fresh. -/
theorem keepsNext_iff_fresh {u : UserID} {s : Cloud} : KeepsNext u s ↔ Fresh u s := by
  constructor
  · intro h j user hj hu
    by_cases hne : snapshot (userRef u) s.database = []
    · exact Or.inl hne
    · subst hu
      exact (dataKept_setupWrite_iff hne).mp
        (h (.deliver j) ⟨user, rfl, Or.inr hj⟩ hne _ (Cloud.step_deliver_of hj))
  · intro h a ha hne s' hstep
    cases a with
    | call | fail => exact ha.elim
    | deliver id =>
      obtain ⟨t, hid, rfl⟩ := Cloud.step_deliver hstep
      obtain ⟨user, rfl, hr | hw⟩ := ha
      · obtain rfl : t = .setupRead user := Option.some.inj (hid.symm.trans hr)
        exact ⟨rfl, fun _ he ↦ he, fun _ he ↦ he⟩
      · obtain rfl : t = .setupWrite user := Option.some.inj (hid.symm.trans hw)
        exact (dataKept_setupWrite_iff hne).mpr (h id user hw rfl)

/-! ## One step -/

/-- **A write below a fresh branch** leaves it fresh exactly if it spares the replacement. -/
theorem isFresh_write_iff {user : CapUser} {t : Task} {database : Database}
    (hu : t.user = user.Key) (hs : ∀ user', t ≠ .setupWrite user')
    (h : IsFresh user (snapshot (userRef user.Key) database)) :
    IsFresh user (snapshot (userRef user.Key) (t.write database)) ↔
      t.Spares user (snapshot (userRef user.Key) database) := by
  have hkeep : ∀ {key}, t.writtenKey ≠ some key →
      snapshot [key] (snapshot (userRef user.Key) (t.write database))
        = snapshot [key] (snapshot (userRef user.Key) database) := by
    intro key hk
    rw [snapshot_snapshot, snapshot_snapshot, Task.snapshot_write_of_key_ne hs hk]
  have himages := h.images
  have hprofile := h.profileUrl
  cases t
  case setupWrite user' => exact absurd rfl (hs user')
  case limitWrite v value =>
    obtain rfl : v = user.Key := hu
    have hlimit := snapshot_limitWrite user.Key value database
    rw [IsFresh, or_iff_right (ne_nil_of_snapshot_ne_nil (by rw [hlimit]; simp)), hlimit,
      hkeep (by simp [Task.writtenKey]), hkeep (by simp [Task.writtenKey]), himages, hprofile,
      Task.Spares]
    simp
  case nameWrite v name =>
    obtain rfl : v = user.Key := hu
    have hname := snapshot_nameWrite user.Key name database
    rw [IsFresh, or_iff_right (ne_nil_of_snapshot_ne_nil (by rw [hname]; simp)),
      hkeep (by simp [Task.writtenKey]), hkeep (by simp [Task.writtenKey]),
      hkeep (by simp [Task.writtenKey]), Task.Spares]
    refine ⟨fun hfresh ↦ ne_nil_of_snapshot_ne_nil (by rw [hfresh.1]; simp), fun hne ↦ ?_⟩
    exact h.resolve_left hne
  case profileUrlWrite v profileUrl =>
    obtain rfl : v = user.Key := hu
    refine iff_of_false (fun hfresh ↦ ?_) id
    have hlost := (snapshot_profileUrlWrite user.Key profileUrl database).symm.trans
      hfresh.profileUrl
    exact absurd hlost (by simp)
  case imageWrite v key link text name =>
    obtain rfl : v = user.Key := hu
    refine iff_of_false (fun hfresh ↦ ?_) id
    have hlost := congrArg (snapshot [key]) hfresh.images
    rw [snapshot_snapshot (userRef user.Key), ← imagesRef_eq, snapshot_snapshot] at hlost
    exact absurd ((snapshot_setValue_self _ _ _).symm.trans hlost) (by simp [imageRecord, snapshot])
  case imageRemove v id =>
    obtain rfl : v = user.Key := hu
    refine iff_of_true ?_ trivial
    rcases h with h | ⟨hlimit, -, -⟩
    · exact Or.inl (snapshot_removeValue_eq_nil h _)
    · refine Or.inr ⟨?_, ?_, ?_⟩
      · rw [hkeep (by simp [Task.writtenKey]), hlimit]
      · rw [snapshot_snapshot] at himages ⊢
        exact snapshot_removeValue_eq_nil himages _
      · rw [hkeep (by simp [Task.writtenKey]), hprofile]
  all_goals exact iff_of_true h trivial

/-- What is fresh after a step: the branch for the replacement the step sets off, and for those
that are on their way already. -/
theorem fresh_perform_iff {u : UserID} {s : Cloud} {id : ℕ} {t : Task} :
    Fresh u (s.perform id t) ↔
      (∀ user, s.followUp t = some (.setupWrite user) → user.Key = u →
        IsFresh user (snapshot (userRef u) (t.write s.database))) ∧
      ∀ j user, j ≠ id → s.inFlight j = some (.setupWrite user) → user.Key = u →
        IsFresh user (snapshot (userRef u) (t.write s.database)) := by
  constructor
  · intro h
    refine ⟨fun user hf ↦ h id user ((s.perform_inFlight_self id t).trans hf), ?_⟩
    intro j user hne hj
    refine h j user ?_
    rw [s.perform_inFlight_of_ne t hne, hj]
    rfl
  · rintro ⟨hnew, hold⟩ j user hj hu
    rcases Cloud.perform_inFlight hj (by simp) with ⟨-, hf⟩ | ⟨hne, hj⟩
    · exact hnew user hf hu
    · exact hold j user hne hj hu

section Step

variable {u : UserID} {s s' : Cloud} {id : ℕ}

/-- Naming another step that is not a replacement changes nothing. -/
theorem fresh_update (h : Fresh u s) (id : ℕ) {t : Option Task}
    (ht : ∀ user, t ≠ some (.setupWrite user)) :
    Fresh u { s with inFlight := Function.update s.inFlight id t } := by
  intro j user hj hu
  rcases update_eq_some hj with ⟨-, hnew⟩ | ⟨-, hj⟩
  · exact absurd hnew (ht user)
  · exact h j user hj hu

theorem fresh_setupRead_iff {user : CapUser} (h : Fresh u s) :
    Fresh u (s.perform id (.setupRead user)) ↔ UndisturbedTask u s id (.setupRead user) := by
  rw [fresh_perform_iff]
  constructor
  · rintro ⟨hnew, -⟩ rfl
    by_contra hbare
    rw [not_or] at hbare
    have hfollow : s.followUp (.setupRead user) = some (.setupWrite user) := by
      rw [Cloud.followUp, if_pos (asDictionary_eq_none_iff.mpr hbare.2)]
    obtain ⟨hlimit, -, -⟩ := (hnew user hfollow rfl).resolve_left hbare.1
    exact hbare.2 (hasChildren_of_snapshot_ne_nil (k := "photoLimit") (by
      show snapshot ["photoLimit"] (snapshot (userRef user.Key) s.database) ≠ []
      exact ne_of_eq_of_ne hlimit (by simp)))
  · intro hd
    refine ⟨fun user' hf hu ↦ Or.inl ?_, fun j user' _ hj hu ↦ h j user' hj hu⟩
    obtain ⟨he, hn⟩ := Cloud.followUp_eq_setupWrite hf
    obtain rfl : user = user' := by simpa using he
    subst hu
    exact (hd rfl).resolve_right hn

theorem fresh_setupWrite_iff {user : CapUser} (h : Fresh u s) :
    Fresh u (s.perform id (.setupWrite user)) ↔ UndisturbedTask u s id (.setupWrite user) := by
  rw [fresh_perform_iff, and_iff_right (fun user' hf ↦ absurd hf (by simp [Cloud.followUp]))]
  by_cases hu : user.Key = u
  · subst hu
    simp only [snapshot_setupWrite, isFresh_dictionary_iff, UndisturbedTask, true_implies]
  · have hother : (Task.setupWrite user).user ≠ u := hu
    refine iff_of_true (fun j user' _ hj hu' ↦ ?_) fun hk ↦ absurd hk hu
    rw [Task.snapshot_write_of_user_ne hother]
    exact h j user' hj hu'

theorem fresh_other_iff {t : Task} (h : Fresh u s) (hid : s.inFlight id = some t)
    (hr : ∀ user, t ≠ .setupRead user) (hw : ∀ user, t ≠ .setupWrite user) :
    Fresh u (s.perform id t) ↔ UndisturbedTask u s id t := by
  have hfollow : ∀ user, s.followUp t = some (.setupWrite user) → user.Key = u →
      IsFresh user (snapshot (userRef u) (t.write s.database)) :=
    fun user hf ↦ absurd (Cloud.followUp_eq_setupWrite hf).1 (hr user)
  have hne : ∀ {j user}, s.inFlight j = some (.setupWrite user) → j ≠ id := by
    rintro j user hj rfl
    exact hw user (Option.some.inj (hid.symm.trans hj))
  have hd : UndisturbedTask u s id t ↔ (t.user = u → ∀ j user,
      s.inFlight j = some (.setupWrite user) → user.Key = u →
        t.Spares user (snapshot (userRef u) s.database)) := by
    cases t
    case setupRead user => exact absurd rfl (hr user)
    case setupWrite user => exact absurd rfl (hw user)
    all_goals exact Iff.rfl
  rw [fresh_perform_iff, and_iff_right hfollow, hd]
  by_cases hu : t.user = u
  · rw [forall_prop_of_true hu]
    constructor
    · intro hfresh j user hj hk
      have hafter := hfresh j user (hne hj) hj hk
      subst hk
      exact (isFresh_write_iff hu hw (h j user hj rfl)).mp hafter
    · intro hspares j user _ hj hk
      have hsafe := hspares j user hj hk
      subst hk
      exact (isFresh_write_iff hu hw (h j user hj rfl)).mpr hsafe
  · refine iff_of_true (fun j user _ hj hk ↦ ?_) fun hk ↦ absurd hk hu
    rw [Task.snapshot_write_of_user_ne hu]
    exact h j user hj hk

/-- **The step lemma**: a step keeps every branch that is about to be replaced fresh exactly if it
is undisturbed. -/
theorem fresh_step_iff {a : Action} (h : Fresh u s) (hstep : s.step a = some s') :
    Fresh u s' ↔ Undisturbed u s a := by
  cases a with
  | call id c =>
    obtain ⟨-, rfl⟩ := Cloud.step_call hstep
    exact iff_of_true (fresh_update h id fun user ↦ by cases c <;> simp [Call.task]) trivial
  | fail id =>
    obtain rfl := Cloud.step_fail hstep
    exact iff_of_true (fresh_update h id (by simp)) trivial
  | deliver id =>
    obtain ⟨t, hid, rfl⟩ := Cloud.step_deliver hstep
    have hd : Undisturbed u s (.deliver id) ↔ UndisturbedTask u s id t :=
      ⟨fun hall ↦ hall t hid, fun ht t' ht' ↦ Option.some.inj (hid.symm.trans ht') ▸ ht⟩
    rw [hd]
    by_cases hr : ∃ user, t = .setupRead user
    · obtain ⟨user, rfl⟩ := hr
      exact fresh_setupRead_iff h
    by_cases hw : ∃ user, t = .setupWrite user
    · obtain ⟨user, rfl⟩ := hw
      exact fresh_setupWrite_iff h
    · exact fresh_other_iff h hid (fun user ht ↦ hr ⟨user, ht⟩) fun user ht ↦ hw ⟨user, ht⟩

end Step

theorem fresh_of_idle {u : UserID} {s : Cloud} (h : s.Idle) : Fresh u s := by
  intro j user hj
  rw [h.inFlight] at hj
  exact absurd hj (by simp)

/-- **Provisioning destroys nothing**, in any state of a run and with any step of `setupUser` that
may come next, if and only if no step of the run comes between the look and the replacement of a
`setupUser` call. -/
theorem keeps_iff {u : UserID} {s₀ s : Cloud} {as : List Action} (hs : s₀.Idle)
    (hrun : run Cloud.step s₀ as = some s) :
    Throughout Cloud.step (KeepsNext u) s₀ as ↔ Meets Cloud.step (Undisturbed u) s₀ as := by
  have hfresh : KeepsNext u = Fresh u := funext fun s ↦ propext keepsNext_iff_fresh
  rw [hfresh]
  exact (meets_iff_throughout (I := fun _ ↦ True) (fun _ _ _ _ _ _ _ ↦ trivial)
    (fun _ _ _ _ h hstep ↦ fresh_step_iff h hstep) trivial (fresh_of_idle hs) hrun).symm

/-! ## Two devices at once -/

/-- The calls of the provisioning scenario: `setupUser`, `photoLimit`, `addNew` and the two ways
to a new profile photo, for the user `u`. -/
def ProvisioningCall (u : UserID) : Action → Prop
  | .call _ (.setupUser user) => user.Key = u
  | .call _ (.photoLimit v) | .call _ (.addNew v ..) | .call _ (.updateProfileUrl v _)
  | .call _ (.updateProfileImage v ..) => v = u
  | .call .. => False
  | .deliver _ => True
  | .fail _ => False

/-- An empty server. -/
def emptyCloud : Cloud := .start .plain []

/-- `alice` registers, and signs in a second time. -/
def repeatedSetup : List Action :=
  [.call 0 (.setupUser (.setAuthorizedUser alice none)), .deliver 0, .deliver 0,
    .call 1 (.setupUser (.setAuthorizedUser alice none)), .deliver 1]

theorem keeps_repeatedSetup :
    Throughout Cloud.step (KeepsNext alice) emptyCloud repeatedSetup := by
  obtain ⟨s, hs⟩ : ∃ s, run Cloud.step emptyCloud repeatedSetup = some s := ⟨_, rfl⟩
  refine (keeps_iff (Cloud.idle_start _ _) hs).mpr ?_
  rw [repeatedSetup, meets_cons rfl, meets_cons rfl, meets_cons rfl, meets_cons rfl, meets_cons rfl]
  refine ⟨trivial, ?_, ?_, trivial, ?_, trivial⟩
  · intro t ht
    obtain rfl : t = .setupRead (.setAuthorizedUser alice none) := (Option.some.inj ht).symm
    exact fun _ ↦ Or.inl rfl
  · intro t ht
    obtain rfl : t = .setupWrite (.setAuthorizedUser alice none) := (Option.some.inj ht).symm
    intro _ j user hj hid
    simp [Cloud.perform_inFlight_of_ne _ _ hj, Function.update_of_ne hj, Cloud.start] at hid
  · intro t ht
    obtain rfl : t = .setupRead (.setAuthorizedUser alice none) := (Option.some.inj ht).symm
    exact fun _ ↦ Or.inr (by decide)

/-- Two devices find `alice` missing; one of them sets her up and draws on the quota. -/
def overlappingSetups : List Action :=
  [.call 0 (.setupUser (.setAuthorizedUser alice none)),
    .call 1 (.setupUser (.setAuthorizedUser alice none)), .deliver 0, .deliver 1, .deliver 1,
    .call 2 (.photoLimit alice), .deliver 2, .deliver 2]

/-- **Provisioning can refill a quota.**  The slower device's replacement comes next. -/
theorem not_provisioning_safe : ¬∀ (u : UserID) (s₀ s : Cloud) (as : List Action), s₀.Idle →
    run Cloud.step s₀ as = some s → (∀ a ∈ as, ProvisioningCall u a) → KeepsNext u s := by
  intro h
  obtain ⟨s, hs⟩ := Option.isSome_iff_exists.mp
    (show (run Cloud.step emptyCloud overlappingSetups).isSome by decide)
  have hkeeps := h alice emptyCloud s _ (Cloud.idle_start _ _) hs
    (by simp [overlappingSetups, ProvisioningCall, CapUser.setAuthorizedUser]) (.deliver 0)
  obtain rfl := Option.some.inj hs
  have hkept := hkeeps ⟨.setAuthorizedUser alice none, rfl, Or.inr rfl⟩ (by decide) _ rfl
  exact absurd hkept.photoLimit (by decide)

end LandCap
