import Mathlib.Data.Multiset.OrderedMonoid
import Mathlib.Algebra.Order.Group.Multiset
import Mathlib.Tactic.Abel
import LandCap.CapDatabase.Basic

/-!
# The grid of the profile screen

`viewWillAppear` empties `userImageObjects` and puts a block on the main queue that registers a
`childAdded` observer; the observer appends to the array.  No observer is ever removed, so every
appearance adds one more.  Firebase tells an observer about every existing child once and then
about every added child once; nothing tells the screen that a child has been removed.

`due` counts what the array will hold when everything that is pending has been delivered: the
entries it holds, the events in the observers' queues, and every record once for each block.  A
delivery only moves entries from one part of this sum to another.  The grid comes to mirror the
database, however the pending blocks and events are delivered, exactly when `due` is one entry for
each record (`settles_iff`), and `mirrors_iff` says which steps keep it so: an appearance with
nothing on its way, an addition while one observer is all there is, and a removal that comes before
the only observer has been registered.
-/

set_option autoImplicit false

namespace LandCap

open PathTree Runs

/-! ## Records -/

/-- A record under `users/<id>/images`: a dictionary, with its key. -/
structure Record where
  key : String
  value : Database
  isDictionary : HasChildren value
  deriving DecidableEq

/-- The entry of a record. -/
def Record.userImage (r : Record) : UserImage where
  text := (valueFor r.value "text").bind Leaf.asString
  name := (valueFor r.value "name").bind Leaf.asString
  imageURL := (valueFor r.value "link").bind Leaf.asString
  id := some r.key

/-- The observer calls back for every record. -/
theorem ofSnapshot_record (r : Record) :
    UserImage.ofSnapshot r.key r.value = some r.userImage := by
  rw [UserImage.ofSnapshot, asDictionary, if_pos r.isDictionary]
  rfl

/-! ## The screen -/

/-- One profile screen and the image records of its user. -/
structure Grid where
  records : List Record
  userImageObjects : List UserImage
  /-- How many blocks that call `getImages` are on the main queue. -/
  blocks : ℕ
  /-- The observers, each with the events it has not received yet. -/
  observers : List (List Record)

inductive GridEvent where
  | viewWillAppear
  /-- The main queue runs a block: an observer is registered. -/
  | runBlock
  /-- The observer number `i` receives an event. -/
  | childAdded (i : ℕ)
  /-- A client adds a record. -/
  | add (r : Record)
  /-- A client removes a record. -/
  | remove (r : Record)

def Grid.step (s : Grid) : GridEvent → Option Grid
  | .viewWillAppear => some { s with userImageObjects := [], blocks := s.blocks + 1 }
  | .runBlock =>
    if 0 < s.blocks then
      some { s with blocks := s.blocks - 1, observers := s.records :: s.observers }
    else none
  | .childAdded i =>
    match s.observers[i]? with
    | some (r :: queue) =>
      some { s with
        userImageObjects := s.userImageObjects ++ (UserImage.ofSnapshot r.key r.value).toList
        observers := s.observers.set i queue }
    | _ => none
  | .add r =>
    if r.key ∈ s.records.map Record.key then none
    else some { s with
      records := s.records ++ [r], observers := s.observers.map fun queue ↦ queue ++ [r] }
  | .remove r => if r ∈ s.records then some { s with records := s.records.erase r } else none

/-- The screen at its first `viewWillAppear`. -/
def Grid.opened (records : List Record) : Grid where
  records := records
  userImageObjects := []
  blocks := 1
  observers := []

/-- No block and no event is pending. -/
structure Grid.Quiescent (s : Grid) : Prop where
  blocks : s.blocks = 0
  observers : s.observers.flatten = []

/-- The array holds one entry for each record, and no other entry. -/
def Grid.Mirrors (s : Grid) : Prop := s.userImageObjects.Perm (s.records.map Record.userImage)

/-- A block is run or an event received. -/
def GridEvent.IsDelivery : GridEvent → Prop
  | .runBlock | .childAdded _ => True
  | _ => False

/-- However the pending blocks and events are delivered, the array mirrors the database when none
is left. -/
def Grid.Settles (s : Grid) : Prop :=
  ∀ es t, (∀ e ∈ es, e.IsDelivery) → run Grid.step s es = some t → t.Quiescent → t.Mirrors

/-- The step keeps what the array will hold in step with the records. -/
def Grid.Calm (s : Grid) : GridEvent → Prop
  | .viewWillAppear => s.observers.flatten = [] ∧ (s.blocks = 0 ∨ s.records = [])
  | .add _ => s.observers.length + s.blocks = 1
  | .remove _ => s.blocks = 1
  | _ => True

/-! ## What the array will hold -/

/-- One entry for each record. -/
def Grid.images (s : Grid) : Multiset UserImage := s.records.map Record.userImage

/-- The entries still to be received by the observers. -/
def Grid.events (s : Grid) : Multiset UserImage := s.observers.flatten.map Record.userImage

/-- What the array will hold when everything pending has been delivered. -/
def Grid.due (s : Grid) : Multiset UserImage :=
  (s.userImageObjects : Multiset UserImage) + s.events + s.blocks • s.images

/-- The array will hold one entry for each record. -/
def Grid.Balanced (s : Grid) : Prop := s.due = s.images

/-- Receiving an event takes it out of the queues. -/
theorem flatten_perm_set {α : Type} {qs : List (List α)} {i : ℕ} {a : α} {q : List α}
    (h : qs[i]? = some (a :: q)) : qs.flatten.Perm (a :: (qs.set i q).flatten) := by
  induction qs generalizing i with
  | nil => exact absurd h (by simp)
  | cons p qs ih =>
    cases i with
    | zero =>
      obtain rfl : p = a :: q := by simpa using h
      exact List.Perm.refl _
    | succ i =>
      rw [List.flatten_cons, List.set_cons_succ, List.flatten_cons]
      exact ((ih (by simpa using h)).append_left p).trans List.perm_middle

theorem flatten_map_append_perm {α : Type} (qs : List (List α)) (a : α) :
    (qs.map fun q ↦ q ++ [a]).flatten.Perm (List.replicate qs.length a ++ qs.flatten) := by
  induction qs with
  | nil => exact List.Perm.refl _
  | cons q qs ih =>
    rw [List.map_cons, List.flatten_cons, List.flatten_cons, List.length_cons,
      List.replicate_succ, List.append_assoc, List.singleton_append, List.cons_append]
    refine List.perm_middle.trans (List.Perm.cons a ?_)
    exact (ih.append_left q).trans (List.perm_append_comm_assoc _ _ _)

/-- **A delivery moves entries, and changes neither the records nor what is due.** -/
theorem due_delivery {s s' : Grid} {e : GridEvent} (he : e.IsDelivery)
    (h : s.step e = some s') : s'.due = s.due ∧ s'.records = s.records := by
  cases e with
  | viewWillAppear | add | remove => exact he.elim
  | runBlock =>
    rw [Grid.step] at h
    split at h
    · rename_i hpos
      obtain rfl := Option.some.inj h
      refine ⟨?_, rfl⟩
      obtain ⟨n, hn⟩ : ∃ n, s.blocks = n + 1 := ⟨s.blocks - 1, by omega⟩
      simp only [Grid.due, Grid.events, Grid.images, hn, List.flatten_cons, List.map_append,
        ← Multiset.coe_add, Nat.add_sub_cancel, succ_nsmul]
      abel
    · exact absurd h (by simp)
  | childAdded i =>
    rw [Grid.step] at h
    split at h
    · rename_i r queue hi
      obtain rfl := Option.some.inj h
      refine ⟨?_, rfl⟩
      have hp := Multiset.coe_eq_coe.mpr ((flatten_perm_set hi).map Record.userImage)
      rw [Grid.due, Grid.events, Grid.due, Grid.events, hp, ofSnapshot_record]
      simp only [Option.toList_some, ← Multiset.coe_add, List.map_cons, ← Multiset.cons_coe,
        Multiset.coe_nil, Grid.images, ← Multiset.singleton_add]
      abel
    · exact absurd h (by simp)

theorem due_run {s t : Grid} {es : List GridEvent} (he : ∀ e ∈ es, e.IsDelivery)
    (h : run Grid.step s es = some t) : t.due = s.due ∧ t.records = s.records := by
  refine run_invariant (I := fun m ↦ m.due = s.due ∧ m.records = s.records)
    (fun m e m' hm hd hstep ↦ ?_) ⟨rfl, rfl⟩ (Meets.of_mem he) h
  obtain ⟨hdue, hrec⟩ := due_delivery hd hstep
  exact ⟨hdue.trans hm.1, hrec.trans hm.2⟩

theorem Grid.Quiescent.mirrors_iff_balanced {s : Grid} (h : s.Quiescent) :
    s.Mirrors ↔ s.Balanced := by
  rw [Grid.Balanced, Grid.due, Grid.events, h.blocks, h.observers]
  simp [Grid.Mirrors, Grid.images]

/-- Everything that is pending can be delivered. -/
theorem exists_quiescent (s : Grid) :
    ∃ es t, (∀ e ∈ es, e.IsDelivery) ∧ run Grid.step s es = some t ∧ t.Quiescent := by
  induction hn : s.blocks * (s.records.length + 1) + s.observers.flatten.length using
    Nat.strongRecOn generalizing s with
  | ind n ih =>
    -- a delivery, and the rest by induction
    have hgo : ∀ e s', e.IsDelivery → s.step e = some s' →
        s'.blocks * (s'.records.length + 1) + s'.observers.flatten.length < n →
        ∃ es t, (∀ e ∈ es, e.IsDelivery) ∧ run Grid.step s es = some t ∧ t.Quiescent := by
      intro e s' he hs hlt
      obtain ⟨es, t, hes, ht, hq⟩ := ih _ hlt s' rfl
      exact ⟨e :: es, t, by simpa using ⟨he, hes⟩, run_cons_eq_some.mpr ⟨s', hs, ht⟩, hq⟩
    rcases Nat.eq_zero_or_pos s.blocks with hb | hb
    · by_cases hq : s.observers.flatten = []
      · exact ⟨[], s, by simp, rfl, hb, hq⟩
      · obtain ⟨r, hr⟩ := List.exists_mem_of_ne_nil _ hq
        obtain ⟨q, hmem, hrq⟩ := List.mem_flatten.mp hr
        obtain ⟨i, hi⟩ := List.mem_iff_getElem?.mp hmem
        obtain ⟨r', q', rfl⟩ := List.exists_cons_of_ne_nil (List.ne_nil_of_mem hrq)
        refine hgo (.childAdded i) _ trivial (by rw [Grid.step, hi]) ?_
        have hlen := (flatten_perm_set hi).length_eq
        rw [List.length_cons] at hlen
        simp only [hb] at hn ⊢
        omega
    · refine hgo .runBlock _ trivial (by rw [Grid.step, if_pos hb]) ?_
      obtain ⟨b, hb'⟩ : ∃ b, s.blocks = b + 1 := ⟨s.blocks - 1, by omega⟩
      simp only [hb', List.flatten_cons, List.length_append, Nat.add_sub_cancel] at hn ⊢
      rw [Nat.add_mul] at hn
      omega

/-- **The grid settles exactly when what is due is one entry for each record.** -/
theorem settles_iff {s : Grid} : s.Settles ↔ s.Balanced := by
  refine ⟨fun h ↦ ?_, fun h es t hes ht hq ↦ ?_⟩
  · obtain ⟨es, t, hes, ht, hq⟩ := exists_quiescent s
    obtain ⟨hdue, hrec⟩ := due_run hes ht
    have hb : t.Balanced := hq.mirrors_iff_balanced.mp (h es t hes ht hq)
    rw [Grid.Balanced, hdue, Grid.images, hrec] at hb
    exact hb
  · obtain ⟨hdue, hrec⟩ := due_run hes ht
    rw [hq.mirrors_iff_balanced, Grid.Balanced, hdue, Grid.images, hrec]
    exact h

/-! ## The condition -/

theorem balanced_viewWillAppear {s s' : Grid} (h : s.step .viewWillAppear = some s') :
    s'.Balanced ↔ s.Calm .viewWillAppear := by
  obtain rfl := Option.some.inj h
  have hcard : s.observers.flatten = [] ↔ s.events = 0 := by
    rw [Grid.events, Multiset.coe_eq_zero, List.map_eq_nil_iff]
  have hzero : s.blocks • s.images = 0 ↔ s.blocks = 0 ∨ s.records = [] := by
    rw [← Multiset.card_eq_zero, Multiset.card_nsmul, Nat.mul_eq_zero,
      Multiset.card_eq_zero, Grid.images, Multiset.coe_eq_zero, List.map_eq_nil_iff]
  have hdue : (s.events + s.blocks • s.images) + s.images = 0 + s.images ↔
      s.events + s.blocks • s.images = 0 := add_left_inj _
  rw [Grid.Balanced, Grid.Calm, hcard, ← hzero, ← add_eq_zero, ← hdue, Grid.due]
  simp only [Grid.images, Grid.events, Multiset.coe_nil, zero_add, succ_nsmul, add_assoc]

theorem balanced_add {s s' : Grid} {r : Record} (hb : s.Balanced)
    (h : s.step (.add r) = some s') : s'.Balanced ↔ s.Calm (.add r) := by
  rw [Grid.step] at h
  split at h
  · exact absurd h (by simp)
  obtain rfl := Option.some.inj h
  set x : Multiset UserImage := {r.userImage} with hx
  have himages : ((s.records ++ [r]).map Record.userImage : Multiset UserImage) = s.images + x := by
    rw [List.map_append, ← Multiset.coe_add]
    rfl
  have hevents : (((s.observers.map fun queue ↦ queue ++ [r]).flatten).map Record.userImage :
      Multiset UserImage) = s.observers.length • x + s.events := by
    rw [Multiset.coe_eq_coe.mpr ((flatten_map_append_perm _ r).map Record.userImage),
      List.map_append, List.map_replicate, ← Multiset.coe_add, Multiset.coe_replicate,
      ← Multiset.nsmul_singleton]
    rfl
  have hdue : s.due + (s.observers.length + s.blocks) • x = s.images + x ↔
      s.observers.length + s.blocks = 1 := by
    rw [hb, add_right_inj]
    refine ⟨fun he ↦ ?_, fun he ↦ by rw [he, one_nsmul]⟩
    simpa [hx] using congrArg Multiset.card he
  rw [Grid.Calm, ← hdue, Grid.Balanced, Grid.due, Grid.due, Grid.images, himages, Grid.events,
    hevents, nsmul_add, add_nsmul]
  refine Eq.congr_left ?_
  abel

theorem balanced_remove {s s' : Grid} {r : Record} (hb : s.Balanced)
    (h : s.step (.remove r) = some s') : s'.Balanced ↔ s.Calm (.remove r) := by
  rw [Grid.step] at h
  split at h
  case isFalse => exact absurd h (by simp)
  rename_i hr
  obtain rfl := Option.some.inj h
  set x : Multiset UserImage := {r.userImage} with hx
  set rest : Multiset UserImage := ↑((s.records.erase r).map Record.userImage) with hrest
  have himages : s.images = rest + x := by
    rw [Grid.images, Multiset.coe_eq_coe.mpr ((List.perm_cons_erase hr).map Record.userImage),
      List.map_cons, ← Multiset.cons_coe, ← Multiset.singleton_add, add_comm]
  have hdue : (s.userImageObjects : Multiset UserImage) + s.events + s.blocks • rest
      + s.blocks • x = rest + x := by
    rw [← himages, ← hb, Grid.due, himages, nsmul_add, ← add_assoc]
  show (s.userImageObjects : Multiset UserImage) + s.events + s.blocks • rest = rest ↔ s.blocks = 1
  refine ⟨fun he ↦ ?_, fun he ↦ ?_⟩
  · rw [he, add_right_inj] at hdue
    simpa [hx] using congrArg Multiset.card hdue
  · rw [he, one_nsmul, one_nsmul, add_left_inj] at hdue
    rw [he, one_nsmul]
    exact hdue

/-- **The step lemma**: from balance, a step leads to balance exactly if it is calm. -/
theorem balanced_step {s s' : Grid} {e : GridEvent} (hb : s.Balanced) (h : s.step e = some s') :
    s'.Balanced ↔ s.Calm e := by
  cases e with
  | viewWillAppear => exact balanced_viewWillAppear h
  | add r => exact balanced_add hb h
  | remove r => exact balanced_remove hb h
  | runBlock =>
    obtain ⟨hdue, hrec⟩ := due_delivery (e := .runBlock) trivial h
    refine iff_of_true ?_ trivial
    rw [Grid.Balanced, hdue, Grid.images, hrec]
    exact hb
  | childAdded i =>
    obtain ⟨hdue, hrec⟩ := due_delivery (e := .childAdded i) trivial h
    refine iff_of_true ?_ trivial
    rw [Grid.Balanced, hdue, Grid.images, hrec]
    exact hb

theorem balanced_opened (records : List Record) : (Grid.opened records).Balanced := by
  rw [Grid.Balanced]
  simp only [Grid.due, Grid.opened, Grid.events, Grid.images, one_nsmul, List.flatten_nil,
    List.map_nil, Multiset.coe_nil, zero_add]

/-- **The grid mirrors the database** whenever nothing is pending, throughout a run and however
what is pending is delivered, if and only if every step of the run is calm. -/
theorem mirrors_iff {records : List Record} {es : List GridEvent} {t : Grid}
    (hrun : run Grid.step (.opened records) es = some t) :
    Throughout Grid.step Grid.Settles (.opened records) es ↔
      Meets Grid.step Grid.Calm (.opened records) es := by
  have hs : Grid.Settles = Grid.Balanced := funext fun s ↦ propext settles_iff
  rw [hs]
  exact (meets_iff_throughout (I := fun _ ↦ True) (fun _ _ _ _ _ _ _ ↦ trivial)
    (fun _ _ _ _ hb h ↦ balanced_step hb h) trivial (balanced_opened records) hrun).symm

/-! ## A second appearance -/

/-- The record of a picture, for the examples. -/
def pictureRecord (key : String) : Record where
  key := key
  value := imageRecord "link" "text" "name"
  isDictionary := ⟨(["link"], .string "link"), by simp [imageRecord], by simp⟩

/-- The screen appears once, and a picture is added while it is shown. -/
def oneAppearance : List GridEvent :=
  [.runBlock, .childAdded 0, .add (pictureRecord "b"), .childAdded 0]

theorem mirrors_oneAppearance :
    Throughout Grid.step Grid.Settles (.opened [pictureRecord "a"]) oneAppearance := by
  obtain ⟨t, ht⟩ : ∃ t, run Grid.step (.opened [pictureRecord "a"]) oneAppearance = some t :=
    ⟨_, rfl⟩
  refine (mirrors_iff ht).mpr ?_
  rw [oneAppearance, meets_cons rfl, meets_cons rfl, meets_cons rfl, meets_cons rfl]
  exact ⟨trivial, trivial, rfl, trivial, trivial⟩

/-- The screen appears again before a picture is added. -/
def twoAppearances : List GridEvent :=
  [.runBlock, .childAdded 0, .viewWillAppear, .runBlock, .childAdded 0,
    .add (pictureRecord "b"), .childAdded 0, .childAdded 1]

/-- **A picture can be in the grid twice.** -/
theorem not_mirrors : ¬∀ (records : List Record) (es : List GridEvent) (t : Grid),
    run Grid.step (.opened records) es = some t → t.Quiescent → t.Mirrors := by
  intro h
  obtain ⟨t, ht⟩ : ∃ t, run Grid.step (.opened [pictureRecord "a"]) twoAppearances = some t :=
    ⟨_, rfl⟩
  have hm := h _ _ t ht
  obtain rfl := Option.some.inj ht
  have hlength := (hm ⟨rfl, rfl⟩).length_eq
  exact absurd hlength (by decide)

end LandCap
