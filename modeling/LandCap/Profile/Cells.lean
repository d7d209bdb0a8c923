import LandCap.CapDatabase.Basic
import LandCap.Library.Runs

/-!
# The cells of the profile grid

`cellForItemAt` does not load the image of its row.  It captures the row in a block for the main
queue, and it is the block that indexes `userImageObjects` and unwraps `imageURL`; by then
`viewWillAppear` may have emptied the array, and nothing has checked that the record of the row has
a `link` at all.

The invariant relates every pending block to the array: each of their rows is in range, and its
entry has a link (`Ready`).  `ready_step` says which steps keep it, and since a state is ready
exactly when none of its pending blocks can trap (`safe_iff`), the same steps are the ones that keep
a run from ever trapping (`never_traps_iff`).
-/

set_option autoImplicit false

namespace LandCap

open PathTree Runs

/-! ## The screen -/

/-- The array of the profile screen and the blocks its cells have put on the main queue. -/
structure Cells where
  userImageObjects : List UserImage
  /-- The rows of the blocks that have not run yet, the oldest first. -/
  rows : List ℕ
  trapped : Bool

inductive CellEvent where
  /-- The observer of `getImages` receives a child. -/
  | childAdded (key : String) (value : Database)
  /-- The collection view asks for the cell of a row. -/
  | cellForItemAt (row : ℕ)
  | viewWillAppear
  /-- The main queue runs the oldest block of a cell. -/
  | runBlock

/-- `userImageObjects[row].imageURL!`: `none` when the index is out of range or there is no
link. -/
def Cells.imageURL (s : Cells) (row : ℕ) : Option String :=
  s.userImageObjects[row]?.bind UserImage.imageURL

def Cells.step (s : Cells) : CellEvent → Option Cells
  | .childAdded key value =>
    if s.trapped then none
    else some { s with
      userImageObjects := s.userImageObjects ++ (UserImage.ofSnapshot key value).toList }
  | .cellForItemAt row =>
    -- the collection view has asked `numberOfItemsInSection` before
    if s.trapped ∨ s.userImageObjects.length ≤ row then none
    else some { s with rows := s.rows ++ [row] }
  | .viewWillAppear => if s.trapped then none else some { s with userImageObjects := [] }
  | .runBlock =>
    match s.rows with
    | [] => none
    | row :: rows =>
      if s.trapped then none
      else some { s with rows := rows, trapped := (s.imageURL row).isNone }

/-- The screen before its first `viewWillAppear`. -/
def Cells.opened : Cells where
  userImageObjects := []
  rows := []
  trapped := false

/-- Nothing has trapped, and however many of the pending blocks the main queue runs next, none of
them traps. -/
def Cells.Safe (s : Cells) : Prop :=
  ∀ n t, run Cells.step s (List.replicate n .runBlock) = some t → t.trapped = false

/-- The screen empties its array only when no block is pending, and a cell is only asked for where
the record has a link. -/
def Cells.Calm (s : Cells) : CellEvent → Prop
  | .viewWillAppear => s.rows = []
  | .cellForItemAt row => (s.imageURL row).isSome
  | _ => True

/-! ## Pending blocks -/

/-- Every pending block finds the link it will unwrap. -/
structure Cells.Ready (s : Cells) : Prop where
  running : s.trapped = false
  links : ∀ row ∈ s.rows, (s.imageURL row).isSome

/-- Appending to the array moves no entry. -/
theorem imageURL_append {s : Cells} {row : ℕ} {link : String} (images : List UserImage)
    (h : s.imageURL row = some link) :
    Cells.imageURL { s with userImageObjects := s.userImageObjects ++ images } row = some link := by
  obtain ⟨image, himage, hlink⟩ := Option.bind_eq_some_iff.mp h
  have hrow : row < s.userImageObjects.length := (List.getElem?_eq_some_iff.mp himage).1
  rw [Cells.imageURL, List.getElem?_append_left hrow, himage]
  exact hlink

theorem step_block {s : Cells} {row : ℕ} {rows : List ℕ} (hs : s.trapped = false)
    (hrows : s.rows = row :: rows) :
    s.step .runBlock = some { s with rows := rows, trapped := (s.imageURL row).isNone } := by
  rw [Cells.step, hrows, hs]
  exact if_neg (by decide)

/-- **A ready state stays ready exactly if the step is calm.** -/
theorem ready_step {s s' : Cells} {e : CellEvent} (hs : s.Ready) (h : s.step e = some s') :
    s'.Ready ↔ s.Calm e := by
  cases e with
  | childAdded key value =>
    rw [Cells.step, if_neg (by rw [hs.running]; decide)] at h
    obtain rfl := Option.some.inj h
    refine iff_of_true ⟨hs.running, fun row hrow ↦ ?_⟩ trivial
    obtain ⟨link, hlink⟩ := Option.isSome_iff_exists.mp (hs.links row hrow)
    exact Option.isSome_iff_exists.mpr ⟨link, imageURL_append _ hlink⟩
  | cellForItemAt row =>
    rw [Cells.step] at h
    split at h
    · exact absurd h (by simp)
    obtain rfl := Option.some.inj h
    refine ⟨fun hr ↦ hr.links row (List.mem_append_right _ List.mem_cons_self), fun hlink ↦ ?_⟩
    refine ⟨hs.running, fun r hr ↦ ?_⟩
    rcases List.mem_append.mp hr with hr | hr
    · exact hs.links r hr
    · obtain rfl := List.mem_singleton.mp hr
      exact hlink
  | viewWillAppear =>
    rw [Cells.step, if_neg (by rw [hs.running]; decide)] at h
    obtain rfl := Option.some.inj h
    refine ⟨fun hr ↦ List.eq_nil_iff_forall_not_mem.mpr fun row hrow ↦ ?_, fun hrows ↦ ?_⟩
    · exact absurd (hr.links row hrow) (by simp [Cells.imageURL])
    · exact ⟨hs.running, fun row hrow ↦ absurd (hrows ▸ hrow) List.not_mem_nil⟩
  | runBlock =>
    rcases hrows : s.rows with _ | ⟨row, rows⟩
    · rw [Cells.step, hrows] at h
      exact absurd h (by simp)
    · rw [step_block hs.running hrows] at h
      obtain rfl := Option.some.inj h
      have hlink : (s.imageURL row).isSome := hs.links row (hrows ▸ List.mem_cons_self)
      refine iff_of_true ⟨?_, fun r hr ↦ ?_⟩ trivial
      · exact Option.isNone_eq_false_iff.mpr hlink
      · exact hs.links r (hrows ▸ List.mem_cons_of_mem row hr)

/-- The pending blocks can all be run from a state where one of them is the next to trap. -/
theorem exists_trap {s : Cells} (hs : s.trapped = false) {row : ℕ} (hrow : row ∈ s.rows)
    (hlink : s.imageURL row = none) :
    ∃ n t, run Cells.step s (List.replicate n .runBlock) = some t ∧ t.trapped = true := by
  induction hrows : s.rows generalizing s with
  | nil => exact absurd (hrows ▸ hrow) List.not_mem_nil
  | cons first rows ih =>
    have hstep := step_block hs hrows
    by_cases hfirst : (s.imageURL first).isSome
    · -- the oldest block runs, and the one that traps is still behind it
      have hmem : row ∈ rows := by
        rcases List.mem_cons.mp (hrows ▸ hrow) with rfl | hmem
        · rw [hlink] at hfirst
          exact absurd hfirst (by simp)
        · exact hmem
      obtain ⟨n, t, hrun, ht⟩ := ih (s := { s with
        rows := rows, trapped := (s.imageURL first).isNone })
        (Option.isNone_eq_false_iff.mpr hfirst) hmem hlink rfl
      exact ⟨n + 1, t, run_cons_eq_some.mpr ⟨_, hstep, hrun⟩, ht⟩
    · refine ⟨1, _, run_cons_eq_some.mpr ⟨_, hstep, rfl⟩, ?_⟩
      rw [Option.isNone_iff_eq_none]
      exact Option.not_isSome_iff_eq_none.mp hfirst

/-- **A state is safe exactly when every pending block finds its link.** -/
theorem safe_iff {s : Cells} : s.Safe ↔ s.Ready := by
  refine ⟨fun h ↦ ?_, fun h n t hrun ↦ ?_⟩
  · have hs : s.trapped = false := h 0 s rfl
    refine ⟨hs, fun row hrow ↦ ?_⟩
    by_contra hlink
    obtain ⟨n, t, hrun, ht⟩ := exists_trap hs hrow (Option.not_isSome_iff_eq_none.mp hlink)
    exact absurd (h n t hrun) (by rw [ht]; decide)
  · have hm : Meets Cells.step (fun _ e ↦ e = .runBlock) s (List.replicate n .runBlock) :=
      Meets.of_mem fun e he ↦ List.eq_of_mem_replicate he
    refine (run_invariant (I := Cells.Ready) (fun m e m' hm he hstep ↦ ?_) h hm hrun).running
    subst he
    exact (ready_step hm hstep).mpr trivial

/-- **No block ever traps**, in a run and however its pending blocks run after it, if and only if
every step of the run is calm. -/
theorem never_traps_iff {es : List CellEvent} {t : Cells}
    (hrun : run Cells.step .opened es = some t) :
    Throughout Cells.step Cells.Safe .opened es ↔ Meets Cells.step Cells.Calm .opened es := by
  have hs : Cells.Safe = Cells.Ready := funext fun s ↦ propext safe_iff
  rw [hs]
  exact (meets_iff_throughout (I := fun _ ↦ True) (fun _ _ _ _ _ _ _ ↦ trivial)
    (fun _ _ _ _ hr h ↦ ready_step hr h) trivial
    ⟨rfl, fun _ hrow ↦ absurd hrow List.not_mem_nil⟩ hrun).symm

/-! ## Leaving and coming back -/

/-- A picture is loaded while the screen is shown, and the screen appears again afterwards. -/
def loadThenReturn : List CellEvent :=
  [.viewWillAppear, .childAdded "a" (imageRecord "link" "text" "name"), .cellForItemAt 0,
    .runBlock, .viewWillAppear]

theorem never_traps_loadThenReturn :
    Throughout Cells.step Cells.Safe .opened loadThenReturn := by
  obtain ⟨t, ht⟩ : ∃ t, run Cells.step .opened loadThenReturn = some t := ⟨_, rfl⟩
  refine (never_traps_iff ht).mpr ?_
  rw [loadThenReturn, meets_cons rfl, meets_cons rfl, meets_cons rfl, meets_cons rfl,
    meets_cons rfl]
  exact ⟨rfl, trivial, rfl, trivial, rfl, trivial⟩

/-- The screen appears again between the request for a cell and its block. -/
def returnThenLoad : List CellEvent :=
  [.viewWillAppear, .childAdded "a" (imageRecord "link" "text" "name"), .cellForItemAt 0,
    .viewWillAppear, .runBlock]

/-- **A block can trap**: the array may have been emptied since its cell was asked for. -/
theorem not_never_traps : ¬∀ (es : List CellEvent) (t : Cells),
    run Cells.step .opened es = some t → t.trapped = false := by
  intro h
  obtain ⟨t, ht, htrap⟩ : ∃ t, run Cells.step .opened returnThenLoad = some t ∧ t.trapped = true :=
    ⟨_, rfl, rfl⟩
  rw [h _ t ht] at htrap
  exact Bool.false_ne_true htrap

/-- A record without a link is shown. -/
def showWithoutLink : List CellEvent :=
  [.viewWillAppear, .childAdded "a" [(["text"], .string "text")], .cellForItemAt 0, .runBlock]

example : (run Cells.step .opened showWithoutLink).map Cells.trapped = some true := by decide

end LandCap
