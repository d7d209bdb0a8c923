import LandCap.CapDatabase.Uploads

/-!
# A new profile photo

Every pick on the profile screen puts a block on the main queue.  The block shows the photo and
starts a chain of three steps that nobody waits for: the upload, the lookup of its URL, and the
write of the URL under `users/u/profileUrl`.  The screen follows the picks in their order, since the
main queue does; the chains do not wait for each other, so the photo that ends up in the database is
the one whose chain is the slowest (`not_last_pick_wins`).

`Kept` says that the chain of the newest pick has not been undone as far as it has come: once its
object is stored it stays, and once its URL is written it stays.  A step keeps this exactly if it is
`InOrder`, that is, if it does not overtake the newest pick (`kept_iff`), and when nothing is on its
way any more it says that the last pick has won (`last_pick_wins`).
-/

set_option autoImplicit false

namespace LandCap

open PathTree Runs

/-! ## The screen -/

/-- A pick whose block has run: the bytes of the photo, and the clock when they were uploaded. -/
structure Pick where
  imageData : Data
  now : Clock

/-- The object a pick is uploaded to. -/
def Pick.path (pick : Pick) (userID : UserID) : List String :=
  uploadPath userID .profileUrl pick.now

/-- A profile screen. -/
structure ProfilePhoto where
  /-- `User.session.currentUserID`. -/
  userID : UserID
  cloud : Cloud
  /-- The photos of the blocks on the main queue, the oldest first. -/
  blocks : List Data
  /-- The picks whose block has run, the oldest first; the chain of the `n`-th is the call `n`. -/
  picks : List Pick
  /-- The photo in `profileView.imageView`. -/
  imageView : Option Data

inductive PhotoEvent where
  /-- `imagePickerController(_:didFinishPickingMediaWithInfo:)`, with the bytes of the edited image
  as a PNG, if there is one. -/
  | didFinishPicking (imageData : Option Data)
  /-- The main queue runs the oldest block. -/
  | runBlock (now : Clock)
  /-- The step in flight of a chain is carried out. -/
  | deliver (id : ℕ)

def ProfilePhoto.step (s : ProfilePhoto) : PhotoEvent → Option ProfilePhoto
  | .didFinishPicking imageData => some { s with blocks := s.blocks ++ imageData.toList }
  | .runBlock now =>
    match s.blocks with
    | [] => none
    | imageData :: blocks =>
      (s.cloud.step (.call s.picks.length (.updateProfileImage s.userID imageData now))).map
        fun cloud ↦ { s with
          cloud := cloud
          blocks := blocks
          picks := s.picks ++ [{ imageData := imageData, now := now }]
          imageView := some imageData }
  | .deliver id => (s.cloud.step (.deliver id)).map fun cloud ↦ { s with cloud := cloud }

/-- The screen is opened. -/
def ProfilePhoto.opened (userID : UserID) (cloud : Cloud) (imageView : Option Data) :
    ProfilePhoto where
  userID := userID
  cloud := cloud
  blocks := []
  picks := []
  imageView := imageView

/-- No block is waiting, and no step of a chain is in flight. -/
structure ProfilePhoto.Settled (s : ProfilePhoto) : Prop where
  blocks : s.blocks = []
  inFlight : ∀ id, s.cloud.inFlight id = none

/-- `users/u/profileUrl` is the URL of the object at the path of the pick. -/
def ProfilePhoto.HasUrl (s : ProfilePhoto) (pick : Pick) : Prop :=
  snapshot (profileUrlRef s.userID) s.cloud.database
    = [([], .string (s.cloud.firebase.downloadURL (pick.path s.userID)))]

/-- The last pick has won: the URL is that of its object, the object is its photo, and that is the
photo on the screen. -/
def ProfilePhoto.LastPickWins (s : ProfilePhoto) : Prop :=
  ∀ pick, s.picks.getLast? = some pick → s.HasUrl pick ∧
    s.cloud.storage (pick.path s.userID) = some pick.imageData ∧ s.imageView = some pick.imageData

/-! ## The condition -/

/-- The upload is still to be carried out. -/
def Uploading (t : Option Task) : Prop :=
  ∃ v path data success, t = some (.putData v path data success)

/-- `pick` is the newest pick, and its chain is the call `n`. -/
def ProfilePhoto.Newest (s : ProfilePhoto) (n : ℕ) (pick : Pick) : Prop :=
  s.picks[n]? = some pick ∧ s.picks.length = n + 1

/-- The step does not overtake the newest pick.  An upload that would replace its photo is carried
out before its own, and another URL is written before its own. -/
def ProfilePhoto.InOrder (s : ProfilePhoto) : PhotoEvent → Prop
  | .deliver id => ∀ n pick, s.Newest n pick →
    (∀ v data success, s.cloud.inFlight id = some (.putData v (pick.path s.userID) data success) →
      data ≠ pick.imageData → Uploading (s.cloud.inFlight n)) ∧
    ∀ v url, s.cloud.inFlight id = some (.profileUrlWrite v url) →
      url ≠ s.cloud.firebase.downloadURL (pick.path s.userID) → s.cloud.inFlight n ≠ none
  | _ => True

/-! ## Chains -/

/-- The step in flight belongs to the chain of the pick. -/
def Pick.Chain (pick : Pick) (userID : UserID) (firebase : Firebase) : Task → Prop
  | .putData v path data .profileUrl =>
    v = userID ∧ path = pick.path userID ∧ data = pick.imageData
  | .downloadURL v path .profileUrl => v = userID ∧ path = pick.path userID
  | .profileUrlWrite v url => v = userID ∧ url = firebase.downloadURL (pick.path userID)
  | _ => False

/-- Every step in flight belongs to the chain of the pick with its number, and the photo on the
screen is the newest pick's. -/
structure ProfilePhoto.Chained (s : ProfilePhoto) : Prop where
  inFlight : ∀ id t, s.cloud.inFlight id = some t → ∃ pick, s.picks[id]? = some pick ∧
    pick.Chain s.userID s.cloud.firebase t
  imageView : ∀ pick, s.picks.getLast? = some pick → s.imageView = some pick.imageData

/-- What the chain of the newest pick has done has not been undone. -/
structure ProfilePhoto.Kept (s : ProfilePhoto) : Prop where
  object : ∀ n pick, s.Newest n pick → ¬Uploading (s.cloud.inFlight n) →
    s.cloud.storage (pick.path s.userID) = some pick.imageData
  profileUrl : ∀ n pick, s.Newest n pick → s.cloud.inFlight n = none → s.HasUrl pick

section Step

variable {s s' : ProfilePhoto}

/-- A block starts the chain of its photo. -/
theorem ProfilePhoto.step_runBlock {now : Clock} (h : s.step (.runBlock now) = some s') :
    ∃ imageData blocks, s.blocks = imageData :: blocks ∧ s.cloud.inFlight s.picks.length = none ∧
      s' = { s with
        cloud := { s.cloud with
          inFlight := Function.update s.cloud.inFlight s.picks.length
            (some (.putData s.userID (uploadPath s.userID .profileUrl now) imageData .profileUrl)) }
        blocks := blocks
        picks := s.picks ++ [{ imageData := imageData, now := now }]
        imageView := some imageData } := by
  rw [ProfilePhoto.step] at h
  split at h
  · exact absurd h (by simp)
  · rename_i imageData blocks hblocks
    obtain ⟨cloud, hcloud, rfl⟩ := Option.map_eq_some_iff.mp h
    obtain ⟨hfree, rfl⟩ := Cloud.step_call hcloud
    exact ⟨imageData, blocks, hblocks, hfree, rfl⟩

theorem ProfilePhoto.step_deliver {id : ℕ} (h : s.step (.deliver id) = some s') :
    ∃ t, s.cloud.inFlight id = some t ∧ s' = { s with cloud := s.cloud.perform id t } := by
  obtain ⟨cloud, hcloud, rfl⟩ := Option.map_eq_some_iff.mp h
  obtain ⟨t, hid, rfl⟩ := Cloud.step_deliver hcloud
  exact ⟨t, hid, rfl⟩

/-- The chain of a pick goes on as one. -/
theorem Pick.Chain.followUp {pick : Pick} {userID : UserID} {cloud : Cloud} {t t' : Task}
    (h : pick.Chain userID cloud.firebase t) (hf : cloud.followUp t = some t') :
    pick.Chain userID cloud.firebase t' := by
  cases Cloud.followUp_cases hf <;> try exact h.elim
  case downloadURL v path data success =>
    cases success
    · exact h.elim
    · exact ⟨h.1, h.2.1⟩
  case profileUrlWrite v path => exact ⟨h.1, by rw [h.2]⟩

/-- No step of a pick observes. -/
theorem ProfilePhoto.Chained.inFlight_of_perform (h : s.Chained) {id j : ℕ} {t : Task}
    (hne : j ≠ id) :
    (s.cloud.perform id t).inFlight j = s.cloud.inFlight j := by
  refine Cloud.perform_inFlight_eq t hne fun v q hj ↦ ?_
  obtain ⟨pick, -, hchain⟩ := h.inFlight j _ hj
  exact hchain

theorem chained_step {e : PhotoEvent} (h : s.Chained) (hstep : s.step e = some s') :
    s'.Chained := by
  cases e with
  | didFinishPicking imageData =>
    obtain rfl := Option.some.inj hstep
    exact ⟨h.inFlight, h.imageView⟩
  | runBlock now =>
    obtain ⟨imageData, blocks, -, -, rfl⟩ := ProfilePhoto.step_runBlock hstep
    refine ⟨fun id t hid ↦ ?_, fun pick hpick ↦ ?_⟩
    · simp only at hid ⊢
      rcases update_eq_some hid with ⟨rfl, hnew⟩ | ⟨-, hid⟩
      · obtain rfl := Option.some.inj hnew
        exact ⟨⟨imageData, now⟩, by simp, rfl, rfl, rfl⟩
      · obtain ⟨pick, hpick, hchain⟩ := h.inFlight id t hid
        exact ⟨pick, List.getElem?_append_left (List.getElem?_eq_some_iff.mp hpick).1 ▸ hpick,
          hchain⟩
    · obtain rfl : ⟨imageData, now⟩ = pick := by simpa using hpick
      rfl
  | deliver id =>
    obtain ⟨t, hid, rfl⟩ := ProfilePhoto.step_deliver hstep
    refine ⟨fun j t' hj ↦ ?_, h.imageView⟩
    simp only at hj ⊢
    rcases eq_or_ne j id with rfl | hne
    · rw [Cloud.perform_inFlight_self] at hj
      obtain ⟨pick, hpick, hchain⟩ := h.inFlight j t hid
      exact ⟨pick, hpick, hchain.followUp hj⟩
    · rw [h.inFlight_of_perform hne] at hj
      exact h.inFlight j t' hj

/-! ## The newest pick -/

/-- A new pick has nothing that could have been undone. -/
theorem kept_runBlock {now : Clock} (h : s.step (.runBlock now) = some s') : s'.Kept := by
  obtain ⟨imageData, blocks, -, -, rfl⟩ := ProfilePhoto.step_runBlock h
  have hlast : ∀ {n pick}, ProfilePhoto.Newest { s with
      picks := s.picks ++ [{ imageData := imageData, now := now }] } n pick →
      n = s.picks.length := fun hn ↦ by simpa using hn.2.symm
  constructor
  · intro n pick hn hup
    obtain rfl := hlast hn
    exact absurd ⟨_, _, _, _, Function.update_self ..⟩ hup
  · intro n pick hn hnone
    obtain rfl := hlast hn
    exact absurd ((Function.update_self ..).symm.trans hnone) (by simp)

variable {n id : ℕ} {pick : Pick} {t : Task}

/-- The object of the newest pick after a step of a chain: it is replaced by an upload to its path
with other bytes, and by nothing else. -/
theorem object_deliver_iff (h : s.Chained) (hk : s.Kept) (hid : s.cloud.inFlight id = some t)
    (hn : s.Newest n pick) :
    (¬Uploading ((s.cloud.perform id t).inFlight n) →
      (s.cloud.perform id t).storage (pick.path s.userID) = some pick.imageData) ↔
    ∀ v data success, t = .putData v (pick.path s.userID) data success →
      data ≠ pick.imageData → Uploading (s.cloud.inFlight n) := by
  by_cases hput : ∃ v data success, t = .putData v (pick.path s.userID) data success
  · obtain ⟨v, data, success, rfl⟩ := hput
    have hstored : (s.cloud.perform id (.putData v (pick.path s.userID) data success)).storage
        (pick.path s.userID) = some data := Function.update_self ..
    simp only [hstored, Option.some.injEq, Task.putData.injEq, true_and, and_imp]
    rcases eq_or_ne n id with rfl | hne
    · -- the newest pick's own upload
      obtain ⟨pick', hpick', hchain⟩ := h.inFlight n _ hid
      obtain rfl : pick = pick' := Option.some.inj (hn.1.symm.trans hpick')
      refine iff_of_true (fun _ ↦ ?_) fun v' data' success' _ _ _ _ ↦ ⟨_, _, _, _, hid⟩
      cases success
      · exact hchain.elim
      · exact hchain.2.2
    · rw [h.inFlight_of_perform hne]
      refine ⟨fun hup v' data' success' _ hd _ hne' ↦ ?_, fun hup hno ↦ ?_⟩
      · subst hd
        by_contra hno
        exact hne' (hup hno)
      · by_contra hne'
        exact hno (hup v data success rfl rfl rfl hne')
  · have hstored : (s.cloud.perform id t).storage (pick.path s.userID)
        = s.cloud.storage (pick.path s.userID) := by
      cases t <;> try rfl
      case putData v path data success =>
        exact Function.update_of_ne (fun he ↦ hput ⟨v, data, success, by rw [he]⟩) _ _
    rw [hstored]
    refine iff_of_true (fun hup ↦ hk.object n pick hn ?_) fun v data success ht ↦
      absurd ⟨v, data, success, ht⟩ hput
    rcases eq_or_ne n id with rfl | hne
    · -- a step of the newest pick that is not its upload
      rintro ⟨v, path, data, success, hup'⟩
      obtain rfl : t = .putData v path data success := Option.some.inj (hid.symm.trans hup')
      obtain ⟨pick', hpick', hchain⟩ := h.inFlight n _ hid
      obtain rfl : pick = pick' := Option.some.inj (hn.1.symm.trans hpick')
      cases success
      · exact hchain
      · exact hput ⟨v, data, _, by rw [hchain.2.1]⟩
    · rwa [h.inFlight_of_perform hne] at hup

/-- The URL after a step of a chain: it is replaced by the write of another URL, and by nothing
else. -/
theorem url_deliver_iff (h : s.Chained) (hk : s.Kept) (hid : s.cloud.inFlight id = some t)
    (hn : s.Newest n pick) :
    ((s.cloud.perform id t).inFlight n = none →
      ProfilePhoto.HasUrl { s with cloud := s.cloud.perform id t } pick) ↔
    ∀ v url, t = .profileUrlWrite v url →
      url ≠ s.cloud.firebase.downloadURL (pick.path s.userID) → s.cloud.inFlight n ≠ none := by
  obtain ⟨pick', hpick', hchain⟩ := h.inFlight id t hid
  by_cases hw : ∃ v url, t = .profileUrlWrite v url
  · obtain ⟨v, url, rfl⟩ := hw
    obtain rfl : v = s.userID := hchain.1
    have hurl : ProfilePhoto.HasUrl
        { s with cloud := s.cloud.perform id (.profileUrlWrite s.userID url) } pick ↔
        url = s.cloud.firebase.downloadURL (pick.path s.userID) := by
      rw [ProfilePhoto.HasUrl]
      simp only [Cloud.perform_database, Task.write, snapshot_setValue_self]
      simp [Cloud.perform]
    rw [hurl]
    simp only [Task.profileUrlWrite.injEq, and_imp]
    rcases eq_or_ne n id with rfl | hne
    · obtain rfl : pick = pick' := Option.some.inj (hn.1.symm.trans hpick')
      exact iff_of_true (fun _ ↦ hchain.2) fun _ _ _ _ _ ↦ by simp [hid]
    · rw [h.inFlight_of_perform hne]
      refine ⟨fun himp v' url' _ hu hne' hnone ↦ ?_, fun himp hnone ↦ ?_⟩
      · subst hu
        exact hne' (himp hnone)
      · by_contra hne'
        exact himp _ url rfl rfl hne' hnone
  · have hsame : ProfilePhoto.HasUrl { s with cloud := s.cloud.perform id t } pick ↔
        s.HasUrl pick := by
      rw [ProfilePhoto.HasUrl, ProfilePhoto.HasUrl]
      have hwrite : t.write s.cloud.database = s.cloud.database := by
        cases t <;> first | rfl | exact hchain.elim | exact absurd ⟨_, _, rfl⟩ hw
      simp only [Cloud.perform_database, hwrite]
      rfl
    rw [hsame]
    refine iff_of_true (fun hnone ↦ hk.profileUrl n pick hn ?_) fun v url ht ↦
      absurd ⟨v, url, ht⟩ hw
    rcases eq_or_ne n id with rfl | hne
    · -- a step of the newest pick before its write is followed by another one
      rw [Cloud.perform_inFlight_self] at hnone
      exfalso
      cases t <;> try exact hchain.elim
      case putData v path data success => simp [Cloud.followUp] at hnone
      case downloadURL v path success => cases success <;> simp [Cloud.followUp] at hnone
      case profileUrlWrite v url => exact hw ⟨v, url, rfl⟩
    · rwa [h.inFlight_of_perform hne] at hnone

/-- **The step lemma**: a step keeps what the newest pick has done exactly if it does not overtake
it. -/
theorem kept_step_iff {e : PhotoEvent} (h : s.Chained) (hk : s.Kept) (hstep : s.step e = some s') :
    s'.Kept ↔ s.InOrder e := by
  cases e with
  | didFinishPicking imageData =>
    obtain rfl := Option.some.inj hstep
    exact iff_of_true ⟨hk.object, hk.profileUrl⟩ trivial
  | runBlock now => exact iff_of_true (kept_runBlock hstep) trivial
  | deliver id =>
    obtain ⟨t, hid, rfl⟩ := ProfilePhoto.step_deliver hstep
    rw [ProfilePhoto.InOrder]
    simp only [hid, Option.some.injEq]
    constructor
    · intro hk' n pick hn
      exact ⟨(object_deliver_iff h hk hid hn).mp (hk'.object n pick hn),
        (url_deliver_iff h hk hid hn).mp (hk'.profileUrl n pick hn)⟩
    · intro horder
      exact ⟨fun n pick hn ↦ (object_deliver_iff h hk hid hn).mpr (horder n pick hn).1,
        fun n pick hn ↦ (url_deliver_iff h hk hid hn).mpr (horder n pick hn).2⟩

end Step

/-! ## Runs -/

theorem chained_opened {cloud : Cloud} (hs : cloud.Idle) (userID : UserID)
    (imageView : Option Data) : (ProfilePhoto.opened userID cloud imageView).Chained where
  inFlight id t hid := by simp [ProfilePhoto.opened, hs.inFlight] at hid
  imageView pick hpick := by simp [ProfilePhoto.opened] at hpick

theorem kept_opened (userID : UserID) (cloud : Cloud) (imageView : Option Data) :
    (ProfilePhoto.opened userID cloud imageView).Kept where
  object n pick hn := by simp [ProfilePhoto.opened, ProfilePhoto.Newest] at hn
  profileUrl n pick hn := by simp [ProfilePhoto.opened, ProfilePhoto.Newest] at hn

/-- **What the newest pick has done is never undone** if and only if no step overtakes the newest
pick. -/
theorem kept_iff {userID : UserID} {cloud : Cloud} {imageView : Option Data} {t : ProfilePhoto}
    {es : List PhotoEvent} (hs : cloud.Idle)
    (hrun : run ProfilePhoto.step (.opened userID cloud imageView) es = some t) :
    Throughout ProfilePhoto.step ProfilePhoto.Kept (.opened userID cloud imageView) es ↔
      Meets ProfilePhoto.step ProfilePhoto.InOrder (.opened userID cloud imageView) es :=
  (meets_iff_throughout (I := ProfilePhoto.Chained)
    (fun _ _ _ h _ _ hstep ↦ chained_step h hstep) (fun _ _ _ h hk hstep ↦ kept_step_iff h hk hstep)
    (chained_opened hs userID imageView) (kept_opened userID cloud imageView) hrun).symm

/-- When all chains have come to their end, the last pick has won. -/
theorem ProfilePhoto.Kept.lastPickWins {s : ProfilePhoto} (hk : s.Kept) (h : s.Chained)
    (hsettled : s.Settled) : s.LastPickWins := by
  intro pick hpick
  obtain ⟨picks, hpicks⟩ := List.getLast?_eq_some_iff.mp hpick
  have hn : s.Newest picks.length pick := ⟨by simp [hpicks], by simp [hpicks]⟩
  have hnone := hsettled.inFlight picks.length
  refine ⟨hk.profileUrl _ _ hn hnone, hk.object _ _ hn ?_, h.imageView pick hpick⟩
  rw [hnone]
  rintro ⟨v, path, data, success, hup⟩
  exact absurd hup (by simp)

/-- **The last pick wins**, whenever all chains have come to their end, in a run in which no step
overtakes the newest pick. -/
theorem last_pick_wins {userID : UserID} {cloud : Cloud} {imageView : Option Data}
    {t : ProfilePhoto} {es : List PhotoEvent} (hs : cloud.Idle)
    (hrun : run ProfilePhoto.step (.opened userID cloud imageView) es = some t)
    (horder : Meets ProfilePhoto.step ProfilePhoto.InOrder (.opened userID cloud imageView) es) :
    Throughout ProfilePhoto.step (fun s ↦ s.Settled → s.LastPickWins)
      (.opened userID cloud imageView) es := by
  intro bs hbs m hm hsettled
  have hchained : m.Chained :=
    run_preserves (I := ProfilePhoto.Chained) (fun _ _ _ h hstep ↦ chained_step h hstep)
      (chained_opened hs userID imageView) hm
  exact ((kept_iff hs hrun).mpr horder bs hbs m hm).lastPickWins hchained hsettled

/-! ## Two picks -/

/-- The newest pick does not overtake itself. -/
theorem inOrder_newest {s : ProfilePhoto} {id : ℕ} (h : s.picks.length = id + 1) :
    s.InOrder (.deliver id) := by
  intro n pick hn
  obtain rfl : n = id := Nat.succ.inj (hn.2.symm.trans h)
  exact ⟨fun v data success hid _ ↦ ⟨_, _, _, _, hid⟩, fun v url hid _ ↦ by simp [hid]⟩

/-- The chain of the newest pick, step by step, and what comes after it. -/
theorem meets_chain {s : ProfilePhoto} {id : ℕ} {es : List PhotoEvent}
    (h : s.picks.length = id + 1) (hes : ∀ s', s'.picks.length = id + 1 →
      Meets ProfilePhoto.step ProfilePhoto.InOrder s' es) (k : ℕ) :
    Meets ProfilePhoto.step ProfilePhoto.InOrder s (List.replicate k (.deliver id) ++ es) := by
  induction k generalizing s with
  | zero => exact hes s h
  | succ k ih =>
    refine ⟨inOrder_newest h, fun s' hs ↦ ih ?_⟩
    obtain ⟨t, -, rfl⟩ := ProfilePhoto.step_deliver hs
    exact h

/-- A photo, and another one when its chain has come to its end. -/
def pickingTwice : List PhotoEvent :=
  .didFinishPicking (some [1]) :: .runBlock halfPastOneAgain :: (List.replicate 3 (.deliver 0) ++
    .didFinishPicking (some [2]) :: .runBlock aMinuteLater :: (List.replicate 3 (.deliver 1) ++ []))

theorem last_pick_wins_pickingTwice :
    Throughout ProfilePhoto.step (fun s ↦ s.Settled → s.LastPickWins)
      (.opened alice (.start .plain []) none) pickingTwice := by
  obtain ⟨t, ht⟩ : ∃ t, run ProfilePhoto.step (.opened alice (.start .plain []) none) pickingTwice
    = some t := ⟨_, rfl⟩
  refine last_pick_wins (Cloud.idle_start _ _) ht ?_
  refine ⟨trivial, fun s₁ h₁ ↦ ⟨trivial, fun s₂ h₂ ↦ meets_chain ?_ (fun s₃ h₃ ↦ ?_) 3⟩⟩
  · obtain ⟨imageData, blocks, -, -, rfl⟩ := ProfilePhoto.step_runBlock h₂
    obtain rfl := Option.some.inj h₁
    rfl
  · refine ⟨trivial, fun s₄ h₄ ↦ ⟨trivial, fun s₅ h₅ ↦ meets_chain ?_ (fun s₆ h₆ ↦ ?_) 3⟩⟩
    · obtain ⟨imageData, blocks, -, -, rfl⟩ := ProfilePhoto.step_runBlock h₅
      obtain rfl := Option.some.inj h₄
      simp [h₃]
    · trivial

/-- The same photos, and the chain of the second comes to its end first. -/
def overtaking : List PhotoEvent :=
  [.didFinishPicking (some [1]), .didFinishPicking (some [2]), .runBlock halfPastOneAgain,
    .runBlock aMinuteLater, .deliver 1, .deliver 1, .deliver 1, .deliver 0, .deliver 0, .deliver 0]

/-- **An older photo can win.** -/
theorem not_last_pick_wins : ¬∀ (userID : UserID) (cloud : Cloud) (imageView : Option Data)
    (es : List PhotoEvent) (t : ProfilePhoto), cloud.Idle →
    run ProfilePhoto.step (.opened userID cloud imageView) es = some t → t.Settled →
      t.LastPickWins := by
  intro h
  obtain ⟨t, ht⟩ : ∃ t, run ProfilePhoto.step (.opened alice (.start .plain []) none) overtaking
    = some t := ⟨_, rfl⟩
  have hwins := h alice _ none overtaking t (Cloud.idle_start _ _) ht
  obtain rfl := Option.some.inj ht
  have hlast := hwins ⟨rfl, fun id ↦ match id with | 0 => rfl | 1 => rfl | _ + 2 => rfl⟩
    ⟨[2], aMinuteLater⟩ rfl
  exact absurd hlast.1 (by rw [ProfilePhoto.HasUrl]; decide)

end LandCap
