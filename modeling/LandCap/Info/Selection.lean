import LandCap.Info.Detected

/-!
# Selecting sentences

The sentences are shown in cells that UIKit reuses: a cell that has left the screen is bound to
another row later on, and `cellForItemAt` then sets its text, its colours and `didCellTap`, the
closure that captures the cell and the row.  A tap changes the colours of the cell it falls on and
the dictionary `selected`, in one go.

Two things are said about this.  `selection_consistent` is about the screen: whatever cells are
bound to whatever rows, what is selected are at most five sentences of the article, and a cell shows
whether its row is selected.  It needs only that no row is shown in two cells at once, for a tap
paints one cell.  `saved_text_of_taps` is about the order of the taps: each tap that is not refused
toggles its row (`isSelected_handleCellTap`), so what is selected in the end depends on how often
each row has been tapped, and sorting the dictionary makes the text depend on nothing else.
-/

set_option autoImplicit false

namespace LandCap

open InfoController Runs

variable {UIImage : Type}

/-! ## The dictionary -/

namespace Selection

/-- `selected[row] != nil`. -/
def isSelected (selected : Selection) (row : ℕ) : Bool := (selected.lookup row).isSome

/-- A dictionary of the sentences of an article: a key occurs once, and its value is the sentence of
that row. -/
structure Of (contents : List WikiContentModel) (selected : Selection) : Prop where
  keys : (selected.map Prod.fst).Nodup
  content : ∀ entry ∈ selected, contents[entry.1]? = some entry.2

variable {contents : List WikiContentModel} {selected : Selection} {row : ℕ}
  {content : WikiContentModel}

theorem isSelected_iff : selected.isSelected row = true ↔ row ∈ selected.map Prod.fst := by
  rw [isSelected, List.lookup_isSome_iff, List.mem_map]
  exact exists_congr fun entry ↦ and_congr_right fun _ ↦ beq_iff_eq.trans eq_comm

theorem isSelected_remove (selected : Selection) (row other : ℕ) :
    (selected.remove row).isSelected other = (selected.isSelected other && other != row) := by
  rw [Bool.eq_iff_iff, Bool.and_eq_true, isSelected_iff, isSelected_iff, bne_iff_ne]
  simp only [remove, List.mem_map, List.mem_filter, decide_eq_true_eq]
  constructor
  · rintro ⟨entry, ⟨hentry, hne⟩, rfl⟩
    exact ⟨⟨entry, hentry, rfl⟩, hne⟩
  · rintro ⟨⟨entry, hentry, rfl⟩, hne⟩
    exact ⟨entry, ⟨hentry, hne⟩, rfl⟩

theorem isSelected_insert (selected : Selection) (row : ℕ) (content : WikiContentModel)
    (other : ℕ) :
    (selected.insert row content).isSelected other
      = (selected.isSelected other || other == row) := by
  rw [Bool.eq_iff_iff, isSelected_iff, insert, List.map_cons, List.mem_cons, ← isSelected_iff,
    isSelected_remove, Bool.or_eq_true, Bool.and_eq_true, beq_iff_eq, bne_iff_ne]
  tauto

theorem Of.remove (h : Of contents selected) (row : ℕ) : Of contents (selected.remove row) where
  keys := h.keys.sublist (List.filter_sublist.map _)
  content entry hentry := h.content entry (List.mem_of_mem_filter hentry)

theorem Of.insert (h : Of contents selected) (hrow : contents[row]? = some content) :
    Of contents (selected.insert row content) where
  keys := by
    rw [Selection.insert, List.map_cons, List.nodup_cons]
    refine ⟨fun hmem ↦ ?_, (h.remove row).keys⟩
    have hselected := isSelected_iff.mpr hmem
    simp [isSelected_remove] at hselected
  content entry hentry := by
    rcases List.mem_cons.mp hentry with rfl | hentry
    · exact hrow
    · exact (h.remove row).content entry hentry

theorem length_remove_le (selected : Selection) (row : ℕ) :
    (selected.remove row).length ≤ selected.length := List.length_filter_le _ _

end Selection

/-! ## One tap -/

/-- What is selected are at most five sentences of the article. -/
structure SelectsFrom (info : InfoModel UIImage) (controller : InfoController UIImage) :
    Prop where
  infoModel : controller.infoModel = some info
  atMostFive : controller.selected.length ≤ 5
  selected : controller.selected.Of info.wikiModel

section Tap

variable {info : InfoModel UIImage} {controller next : InfoController UIImage} {row : ℕ}
  {alert : Option Alert}

theorem SelectsFrom.handleCellTap (h : SelectsFrom info controller)
    (htap : controller.handleCellTap row = some (next, alert)) : SelectsFrom info next := by
  obtain ⟨infoModel, content, hmodel, hrow, hcases⟩ := handleCellTap_eq_some htap
  obtain rfl := Option.some.inj (h.infoModel.symm.trans hmodel)
  rcases hcases with ⟨-, hroom, rfl, -⟩ | ⟨-, -, rfl, -⟩ | ⟨-, rfl, -⟩
  · refine ⟨hmodel, ?_, h.selected.insert hrow⟩
    exact Nat.succ_le_of_lt ((Selection.length_remove_le _ row).trans_lt hroom)
  · exact h
  · exact ⟨hmodel, (Selection.length_remove_le _ row).trans h.atMostFive, h.selected.remove row⟩

/-- **A tap toggles its row**, unless it is refused, and no other row. -/
theorem isSelected_handleCellTap (htap : controller.handleCellTap row = some (next, alert))
    (other : ℕ) : next.selected.isSelected other
      = (controller.selected.isSelected other ^^ (alert.isNone && other == row)) := by
  obtain ⟨infoModel, content, -, -, hcases⟩ := handleCellTap_eq_some htap
  rcases hcases with ⟨hfree, -, rfl, rfl⟩ | ⟨-, -, rfl, halert⟩ | ⟨hselected, rfl, rfl⟩
  · have hrow : controller.selected.isSelected row = false := by
      rw [Selection.isSelected, hfree, Option.isSome_none]
    rw [Selection.isSelected_insert]
    rcases eq_or_ne other row with rfl | hne
    · simp [hrow]
    · simp [beq_false_of_ne hne]
  · simp [Option.isNone_eq_false_iff.mpr halert]
  · rw [Selection.isSelected_remove]
    rcases eq_or_ne other row with rfl | hne
    · simp [Selection.isSelected, hselected]
    · simp [bne, beq_false_of_ne hne]

end Tap

/-! ## The cells -/

/-- The colours a cell is given. -/
inductive Colour where
  | mainColor
  | white
  | black
  deriving DecidableEq

/-- `InfoCell`. -/
structure InfoCell where
  text : Option String
  backgroundColor : Colour
  textColor : Colour
  /-- The row that the closure in `didCellTap` has captured. -/
  didCellTap : Option ℕ

/-- A new cell. -/
def InfoCell.new : InfoCell where
  text := some "Testing...."
  backgroundColor := .white
  textColor := .black
  didCellTap := none

def InfoCell.highlight (cell : InfoCell) : InfoCell :=
  { cell with backgroundColor := .mainColor, textColor := .white }

def InfoCell.plain (cell : InfoCell) : InfoCell :=
  { cell with backgroundColor := .white, textColor := .black }

/-- The cell shows that its row is selected. -/
def InfoCell.Highlighted (cell : InfoCell) : Prop :=
  cell.backgroundColor = .mainColor ∧ cell.textColor = .white

/-- `cellForItemAt`, for a cell that has been dequeued. -/
def cellForItemAt (controller : InfoController UIImage) (cell : InfoCell) (row : ℕ) :
    Option InfoCell := do
  let content ← (← controller.infoModel).wikiModel[row]?
  let cell := { cell with text := some content.text, didCellTap := some row }
  return if controller.selected.isSelected row then cell.highlight else cell.plain

/-- What `handleCellTap` does to the cell. -/
def cellAfterTap (selected : Selection) (cell : InfoCell) (row : ℕ) : InfoCell :=
  if (selected.lookup row).isNone then
    if selected.length < 5 then cell.highlight else cell
  else cell.plain

/-- The screen with its reusable cells. -/
structure InfoScreen (UIImage : Type) where
  controller : InfoController UIImage
  cells : ℕ → InfoCell
  /-- The row a cell shows, while it is on the screen. -/
  live : ℕ → Option ℕ
  alerts : List Alert

inductive InfoEvent where
  /-- UIKit asks for a cell for the row, and the dequeued cell is this one. -/
  | cellForItemAt (cell row : ℕ)
  /-- The cell leaves the screen. -/
  | didEndDisplaying (cell : ℕ)
  | reloadData
  /-- A tap on a cell that is on the screen. -/
  | tap (cell : ℕ)

namespace InfoScreen

/-- `handleCellTap`. -/
def handleCellTap (screen : InfoScreen UIImage) (cell row : ℕ) : Option (InfoScreen UIImage) :=
  (screen.controller.handleCellTap row).map fun (controller, alert) ↦
    { screen with
      controller := controller
      cells := Function.update screen.cells cell
        (cellAfterTap screen.controller.selected (screen.cells cell) row)
      alerts := alert.toList ++ screen.alerts }

def step (screen : InfoScreen UIImage) : InfoEvent → Option (InfoScreen UIImage)
  | .cellForItemAt cell row =>
    (cellForItemAt screen.controller (screen.cells cell) row).map fun bound ↦
      { screen with
        cells := Function.update screen.cells cell bound
        live := Function.update screen.live cell (some row) }
  | .didEndDisplaying cell => some { screen with live := Function.update screen.live cell none }
  | .reloadData => some { screen with live := fun _ ↦ none }
  | .tap cell =>
    if (screen.live cell).isSome then
      -- `didCellTap?()`
      match (screen.cells cell).didCellTap with
      | none => some screen
      | some row => screen.handleCellTap cell row
    else none

/-- UIKit shows no row in two cells. -/
def OneCellPerRow (screen : InfoScreen UIImage) : InfoEvent → Prop
  | .cellForItemAt cell row => ∀ other, screen.live other = some row → other = cell
  | _ => True

/-- The article has been loaded, nothing is selected, and no cell is on the screen. -/
structure Loaded (info : InfoModel UIImage) (screen : InfoScreen UIImage) : Prop where
  infoModel : screen.controller.infoModel = some info
  selected : screen.controller.selected = []
  live : ∀ cell, screen.live cell = none

/-- The selection is one of the article, and the cells on the screen show it. -/
structure Consistent (info : InfoModel UIImage) (screen : InfoScreen UIImage) : Prop where
  selection : SelectsFrom info screen.controller
  highlighted : ∀ cell row, screen.live cell = some row →
    ((screen.cells cell).Highlighted ↔ screen.controller.selected.isSelected row = true)

/-- A tap on a cell is for the row it shows, and no row is shown twice. -/
structure Wired (screen : InfoScreen UIImage) : Prop where
  didCellTap : ∀ cell row, screen.live cell = some row → (screen.cells cell).didCellTap = some row
  single : ∀ cell other row, screen.live cell = some row → screen.live other = some row →
    cell = other

/-! ## One event -/

section Step

variable {info : InfoModel UIImage} {screen next : InfoScreen UIImage} {cell row : ℕ}

theorem highlighted_highlight (cell : InfoCell) : cell.highlight.Highlighted := ⟨rfl, rfl⟩

theorem not_highlighted_plain (cell : InfoCell) : ¬cell.plain.Highlighted := fun h ↦ nomatch h.1

/-- A bound cell shows its row. -/
theorem cellForItemAt_eq_some {controller : InfoController UIImage} {cell bound : InfoCell}
    (h : LandCap.cellForItemAt controller cell row = some bound) :
    bound.didCellTap = some row ∧
      (bound.Highlighted ↔ controller.selected.isSelected row = true) := by
  rw [LandCap.cellForItemAt] at h
  simp only [Option.bind_eq_bind, Option.bind_eq_some_iff] at h
  obtain ⟨infoModel, -, content, -, h⟩ := h
  obtain rfl := Option.some.inj h
  split
  · rename_i hselected
    exact ⟨rfl, iff_of_true (highlighted_highlight _) hselected⟩
  · rename_i hselected
    exact ⟨rfl, iff_of_false (not_highlighted_plain _) hselected⟩

theorem didCellTap_cellAfterTap (selected : Selection) (cell : InfoCell) (row : ℕ) :
    (cellAfterTap selected cell row).didCellTap = cell.didCellTap := by
  rw [cellAfterTap]
  split_ifs <;> rfl

/-- **A tap paints its cell as it changes the dictionary.** -/
theorem highlighted_cellAfterTap {controller tapped : InfoController UIImage} {cell : InfoCell}
    {alert : Option Alert} (htap : controller.handleCellTap row = some (tapped, alert))
    (h : cell.Highlighted ↔ controller.selected.isSelected row = true) :
    (cellAfterTap controller.selected cell row).Highlighted
      ↔ tapped.selected.isSelected row = true := by
  rw [isSelected_handleCellTap htap, cellAfterTap]
  obtain ⟨infoModel, content, -, -, hcases⟩ := handleCellTap_eq_some htap
  rcases hcases with ⟨hfree, hroom, -, rfl⟩ | ⟨hfree, hroom, -, halert⟩ | ⟨hselected, -, rfl⟩
  · rw [if_pos (Option.isNone_iff_eq_none.mpr hfree), if_pos hroom]
    exact iff_of_true (highlighted_highlight _) (by simp [Selection.isSelected, hfree])
  · rw [if_pos (Option.isNone_iff_eq_none.mpr hfree), if_neg hroom, h]
    simp [Option.isNone_eq_false_iff.mpr halert]
  · rw [if_neg (by simpa using Option.isSome_iff_ne_none.mp hselected)]
    exact iff_of_false (not_highlighted_plain _) (by simp [Selection.isSelected, hselected])

/-- Where a cell is bound, it shows the row; the other cells are as they were. -/
theorem consistent_cellForItemAt (hc : screen.Consistent info) (hw : screen.Wired)
    (hone : screen.OneCellPerRow (.cellForItemAt cell row))
    (h : screen.step (.cellForItemAt cell row) = some next) :
    next.Consistent info ∧ next.Wired := by
  obtain ⟨bound, hbound, rfl⟩ := Option.map_eq_some_iff.mp h
  obtain ⟨htap, hhighlighted⟩ := cellForItemAt_eq_some hbound
  refine ⟨⟨hc.selection, fun other r hlive ↦ ?_⟩, fun other r hlive ↦ ?_,
    fun i j r hi hj ↦ ?_⟩
  · rcases update_eq_some hlive with ⟨rfl, hr⟩ | ⟨hne, hlive⟩
    · obtain rfl := Option.some.inj hr
      simpa only [Function.update_self] using hhighlighted
    · simpa only [Function.update_of_ne hne] using hc.highlighted other r hlive
  · rcases update_eq_some hlive with ⟨rfl, hr⟩ | ⟨hne, hlive⟩
    · obtain rfl := Option.some.inj hr
      simpa only [Function.update_self] using htap
    · simpa only [Function.update_of_ne hne] using hw.didCellTap other r hlive
  · rcases update_eq_some hi with ⟨rfl, hr⟩ | ⟨-, hi'⟩ <;>
      rcases update_eq_some hj with ⟨rfl, hr'⟩ | ⟨-, hj'⟩
    · rfl
    · obtain rfl := Option.some.inj hr
      exact (hone j hj').symm
    · obtain rfl := Option.some.inj hr'
      exact hone i hi'
    · exact hw.single i j r hi' hj'

theorem consistent_tap (hc : screen.Consistent info) (hw : screen.Wired)
    (h : screen.step (.tap cell) = some next) : next.Consistent info ∧ next.Wired := by
  rw [step] at h
  split_ifs at h with hlive
  obtain ⟨row, hrow⟩ := Option.isSome_iff_exists.mp hlive
  rw [hw.didCellTap cell row hrow] at h
  obtain ⟨⟨controller, alert⟩, htap, rfl⟩ := Option.map_eq_some_iff.mp h
  refine ⟨⟨hc.selection.handleCellTap htap, fun other r hr ↦ ?_⟩, fun other r hr ↦ ?_, hw.single⟩
  · rcases eq_or_ne other cell with rfl | hne
    · obtain rfl := Option.some.inj (hrow.symm.trans hr)
      simp only [Function.update_self]
      exact highlighted_cellAfterTap htap (hc.highlighted other row hr)
    · -- another cell shows another row, which the tap leaves alone
      have hother : r ≠ row := by
        rintro rfl
        exact hne (hw.single other cell r hr hrow)
      simp only [Function.update_of_ne hne, isSelected_handleCellTap htap r]
      simpa [beq_false_of_ne hother] using hc.highlighted other r hr
  · show (Function.update screen.cells cell _ other).didCellTap = some r
    rcases eq_or_ne other cell with rfl | hne
    · rw [Function.update_self, didCellTap_cellAfterTap]
      exact hw.didCellTap other r hr
    · rw [Function.update_of_ne hne]
      exact hw.didCellTap other r hr

/-- **The step lemma.** -/
theorem consistent_step {event : InfoEvent} (hc : screen.Consistent info) (hw : screen.Wired)
    (hone : screen.OneCellPerRow event) (h : screen.step event = some next) :
    next.Consistent info ∧ next.Wired := by
  cases event with
  | cellForItemAt cell row => exact consistent_cellForItemAt hc hw hone h
  | tap cell => exact consistent_tap hc hw h
  | didEndDisplaying cell =>
    obtain rfl := Option.some.inj h
    have hlive : ∀ {other row}, Function.update screen.live cell none other = some row →
        screen.live other = some row := fun hother ↦ (update_eq_some_of_ne hother (by simp)).2
    exact ⟨⟨hc.selection, fun other row hother ↦ hc.highlighted other row (hlive hother)⟩,
      fun other row hother ↦ hw.didCellTap other row (hlive hother),
      fun i j row hi hj ↦ hw.single i j row (hlive hi) (hlive hj)⟩
  | reloadData =>
    obtain rfl := Option.some.inj h
    exact ⟨⟨hc.selection, by simp⟩, ⟨by simp, by simp⟩⟩

end Step

/-- **The selection and its display stay consistent.**  After the article has been loaded, whatever
cells are bound to whatever rows and tapped, at most five sentences are selected, each under its own
row, and a cell on the screen is highlighted exactly if its row is selected. -/
theorem selection_consistent {info : InfoModel UIImage} {screen : InfoScreen UIImage}
    {events : List InfoEvent} (hloaded : screen.Loaded info)
    (hone : Meets step OneCellPerRow screen events) :
    Throughout step (Consistent info) screen events := by
  have hstart : screen.Consistent info ∧ screen.Wired := by
    refine ⟨⟨⟨hloaded.infoModel, ?_, ?_⟩, fun cell row hlive ↦ ?_⟩, fun cell row hlive ↦ ?_,
      fun cell other row hlive ↦ ?_⟩
    · rw [hloaded.selected]
      exact Nat.zero_le 5
    · rw [hloaded.selected]
      exact ⟨List.nodup_nil, fun _ hentry ↦ nomatch hentry⟩
    all_goals exact absurd hlive (by simp [hloaded.live])
  have hrun := throughout_of_meets (I := fun screen ↦ screen.Consistent info ∧ screen.Wired)
    (fun _ _ _ h hone hstep ↦ consistent_step h.1 h.2 hone hstep) hstart hone
  exact fun bs hp t ht ↦ (hrun bs hp t ht).1

/-- The screen that `processHandler` opens, once it shows an article, is one to begin with. -/
theorem loaded_of_receive {kit : UIKit UIImage} {seg : Segmentation} {tagger : Tagger seg}
    {imageData : Data} {landmarks : List VisionCloudLandmark} {response : Response}
    {opening shown : InfoController UIImage} {info : InfoModel UIImage}
    (hopen : opened kit imageData landmarks = some opening)
    (hreceive : opening.receive kit seg tagger response = some shown)
    (hmodel : shown.infoModel = some info) (cells : ℕ → InfoCell) :
    Loaded info { controller := shown, cells := cells, live := fun _ ↦ none, alerts := [] } where
  infoModel := hmodel
  selected := by
    obtain ⟨image, rfl⟩ := opened_eq_some hopen
    obtain ⟨-, -, hselected⟩ := receive_frame hreceive
    exact hselected
  live _ := rfl

/-- An article of three sentences, as it has just been shown. -/
def threeSentences : InfoModel Unit where
  title := some "Tower"
  confidence := some 20
  image := some ()
  wikiModel := [⟨"It is tall.", false⟩, ⟨"It is old.", false⟩, ⟨"It is open.", false⟩]

def threeSentencesScreen : InfoScreen Unit where
  controller := { InfoController.ofDetection [] [] with infoModel := some threeSentences }
  cells _ := .new
  live _ := none
  alerts := []

/-- The first row is selected, and its cell is used for the last row. -/
def reusingACell : List InfoEvent :=
  [.cellForItemAt 0 0, .tap 0, .didEndDisplaying 0, .cellForItemAt 0 2]

theorem oneCellPerRow_reusingACell :
    Meets step OneCellPerRow threeSentencesScreen reusingACell := by
  rw [reusingACell]
  refine ⟨fun other hlive ↦ (nomatch hlive), fun s₁ h₁ ↦ ⟨trivial, fun s₂ h₂ ↦ ⟨trivial,
    fun s₃ h₃ ↦ ⟨fun other hlive ↦ ?_, fun _ _ ↦ trivial⟩⟩⟩⟩
  obtain rfl := Option.some.inj h₁
  obtain rfl := Option.some.inj h₂
  obtain rfl := Option.some.inj h₃
  have hbound := (update_eq_some_of_ne hlive (by simp)).2
  exact nomatch (update_eq_some_of_ne hbound (by simp)).2

theorem selection_consistent_reusingACell : ∃ screen,
    run step threeSentencesScreen reusingACell = some screen ∧
      screen.controller.selected.isSelected 0 = true ∧ screen.Consistent threeSentences := by
  obtain ⟨screen, hrun⟩ : ∃ screen, run step threeSentencesScreen reusingACell = some screen :=
    ⟨_, rfl⟩
  have hselected : ∀ screen ∈ run step threeSentencesScreen reusingACell,
      screen.controller.selected.isSelected 0 = true := by decide
  exact ⟨screen, hrun, hselected screen hrun,
    selection_consistent ⟨rfl, rfl, fun _ ↦ rfl⟩ oneCellPerRow_reusingACell _
      (List.prefix_refl _) _ hrun⟩

end InfoScreen

/-! ## The text that is saved -/

/-- No alert: the tap is not refused. -/
def InfoController.Accepts (controller : InfoController UIImage) (row : ℕ) : Prop :=
  (controller.handleCellTap row).bind Prod.snd = none

instance (controller : InfoController UIImage) (row : ℕ) : Decidable (controller.Accepts row) :=
  inferInstanceAs (Decidable (_ = none))

/-- The sentences of these rows, in the order of the rows, each followed by a space. -/
def textOfRows (contents : List WikiContentModel) (rows : ℕ → Bool) : String :=
  String.join ((contents.zipIdx.filter fun entry ↦ rows entry.2).map
    fun entry ↦ entry.1.text ++ " ")

theorem joinedText_eq (contents : List WikiContentModel) :
    joinedText contents = String.join (contents.map fun content ↦ content.text ++ " ") := by
  rw [joinedText, String.join, List.foldl_map]
  simp only [String.append_assoc]

theorem Selection.Of.mem_iff {contents : List WikiContentModel} {selected : Selection}
    (h : selected.Of contents) (entry : ℕ × WikiContentModel) :
    entry ∈ selected ↔ contents[entry.1]? = some entry.2 ∧ selected.isSelected entry.1 = true := by
  refine ⟨fun hentry ↦ ⟨h.content entry hentry, isSelected_iff.mpr (List.mem_map_of_mem hentry)⟩,
    fun ⟨hcontent, hselected⟩ ↦ ?_⟩
  obtain ⟨found, hfound, hrow⟩ := List.mem_map.mp (isSelected_iff.mp hselected)
  have hvalue : found.2 = entry.2 := by
    have hsome := h.content found hfound
    rw [hrow, hcontent] at hsome
    exact (Option.some.inj hsome).symm
  exact Prod.ext hrow hvalue ▸ hfound

/-- **The sorted dictionary lists the selected sentences in the order of the article.** -/
theorem Selection.Of.insertionSort_eq {contents : List WikiContentModel} {selected : Selection}
    (h : selected.Of contents) :
    selected.insertionSort (fun x y ↦ x.1 ≤ y.1)
      = (contents.zipIdx.filter fun entry ↦ selected.isSelected entry.2).map Prod.swap := by
  have hrows : contents.zipIdx.Pairwise fun x y ↦ x.2 < y.2 := by
    rw [← List.pairwise_map (f := Prod.snd), List.zipIdx_map_snd]
    exact List.pairwise_lt_range'
  have hlisted : ((contents.zipIdx.filter fun entry ↦ selected.isSelected entry.2).map
      Prod.swap).Pairwise fun x y ↦ x.1 < y.1 := by
    rw [List.pairwise_map]
    exact hrows.sublist List.filter_sublist
  have hperm : selected.Perm ((contents.zipIdx.filter fun entry ↦
      selected.isSelected entry.2).map Prod.swap) := by
    refine (List.perm_ext_iff_of_nodup h.keys.of_map ?_).mpr fun entry ↦ ?_
    · exact hlisted.imp fun hlt heq ↦ absurd (congrArg Prod.fst heq) (Nat.ne_of_lt hlt)
    · rw [h.mem_iff, List.mem_map]
      constructor
      · rintro ⟨hcontent, hselected⟩
        exact ⟨entry.swap, List.mem_filter.mpr ⟨List.mem_zipIdx_iff_getElem?.mpr hcontent,
          hselected⟩, entry.swap_swap⟩
      · rintro ⟨listed, hmem, rfl⟩
        obtain ⟨hmem, hselected⟩ := List.mem_filter.mp hmem
        exact ⟨List.mem_zipIdx_iff_getElem?.mp hmem, hselected⟩
  have hsorted := List.pairwise_insertionSort (fun x y ↦ x.1 ≤ y.1) selected
  refine List.Perm.eq_of_pairwise (fun x y hx hy hxy hyx ↦ ?_) hsorted (hlisted.imp le_of_lt)
    ((List.perm_insertionSort _ _).trans hperm)
  -- entries with one key are equal, since the key is that of their sentence
  have hfst : x.1 = y.1 := le_antisymm hxy hyx
  have hx' := ((h.mem_iff x).mp ((List.mem_insertionSort _).mp hx)).1
  have hy' := ((h.mem_iff y).mp (hperm.mem_iff.mpr hy)).1
  rw [hfst, hy'] at hx'
  exact Prod.ext hfst (Option.some.inj hx').symm

theorem Selection.Of.userSelectedText_eq {contents : List WikiContentModel} {selected : Selection}
    (h : selected.Of contents) :
    selected.userSelectedText = textOfRows contents selected.isSelected := by
  rw [userSelectedText, h.insertionSort_eq, joinedText_eq, List.map_map, List.map_map]
  rfl

/-- **After taps that are not refused, a row has been toggled as often as it was tapped.** -/
theorem isSelected_run {controller tapped : InfoController UIImage} {rows : List ℕ}
    (haccepts : Meets InfoController.tap InfoController.Accepts controller rows)
    (hrun : run InfoController.tap controller rows = some tapped) (row : ℕ) :
    tapped.selected.isSelected row
      = (controller.selected.isSelected row ^^ decide (Odd (rows.count row))) := by
  induction rows generalizing controller with
  | nil =>
    obtain rfl := Option.some.inj hrun
    simp
  | cons first rows ih =>
    obtain ⟨next, htap, hrest⟩ := run_cons_eq_some.mp hrun
    obtain ⟨⟨_, alert⟩, hhandle, rfl⟩ := Option.map_eq_some_iff.mp htap
    have haccepted := haccepts.1
    rw [InfoController.Accepts, hhandle, Option.bind_some] at haccepted
    obtain rfl : alert = none := haccepted
    rw [ih (haccepts.2 _ htap) hrest, isSelected_handleCellTap hhandle, List.count_cons]
    rcases eq_or_ne row first with rfl | hne
    · rcases Nat.even_or_odd (rows.count row) with heven | hodd
      · simp [heven.add_one, Nat.not_odd_iff_even.mpr heven]
      · simp [hodd, Nat.not_odd_iff_even.mpr hodd.add_one]
    · simp [beq_false_of_ne hne, hne.symm]

/-- **The saved text does not depend on the order of the taps.**  After taps that are not refused,
the selected rows are those that have been tapped an odd number of times, the text is made of their
sentences in the order of the article, and it is the same after the same taps in another order. -/
theorem saved_text_of_taps {info : InfoModel UIImage} {controller tapped : InfoController UIImage}
    {rows : List ℕ} (hmodel : controller.infoModel = some info) (hempty : controller.selected = [])
    (haccepts : Meets InfoController.tap InfoController.Accepts controller rows)
    (hrun : run InfoController.tap controller rows = some tapped) :
    (∀ row, tapped.selected.isSelected row = true ↔ Odd (rows.count row)) ∧
      tapped.selected.userSelectedText
        = textOfRows info.wikiModel tapped.selected.isSelected ∧
      ∀ rows' tapped', rows.Perm rows' →
        Meets InfoController.tap InfoController.Accepts controller rows' →
        run InfoController.tap controller rows' = some tapped' →
        tapped'.selected.userSelectedText = tapped.selected.userSelectedText := by
  have hstart : SelectsFrom info controller :=
    ⟨hmodel, hempty ▸ Nat.zero_le 5, hempty ▸ ⟨List.nodup_nil, fun _ h ↦ nomatch h⟩⟩
  have htext : ∀ {rows tapped}, run InfoController.tap controller rows = some tapped →
      tapped.selected.userSelectedText
        = textOfRows info.wikiModel tapped.selected.isSelected := by
    intro rows tapped hrun
    have hselects : SelectsFrom info tapped := by
      refine run_preserves (fun _ _ _ h htap ↦ ?_) hstart hrun
      obtain ⟨⟨_, alert⟩, hhandle, rfl⟩ := Option.map_eq_some_iff.mp htap
      exact h.handleCellTap hhandle
    exact hselects.selected.userSelectedText_eq
  have hodd : ∀ {rows tapped}, Meets InfoController.tap InfoController.Accepts controller rows →
      run InfoController.tap controller rows = some tapped →
      ∀ row, tapped.selected.isSelected row = decide (Odd (rows.count row)) := by
    intro rows tapped haccepts hrun row
    rw [isSelected_run haccepts hrun, hempty]
    exact Bool.false_xor _
  refine ⟨fun row ↦ ?_, htext hrun, fun rows' tapped' hperm haccepts' hrun' ↦ ?_⟩
  · rw [hodd haccepts hrun, decide_eq_true_iff]
  · rw [htext hrun, htext hrun']
    refine congrArg _ (funext fun row ↦ ?_)
    rw [hodd haccepts hrun, hodd haccepts' hrun', hperm.count_eq]

/-- The last row is tapped, then the first one, and the second one twice. -/
def tappingFour : List ℕ := [2, 1, 0, 1]

theorem saved_text_of_taps_tappingFour : ∃ tapped,
    run InfoController.tap InfoScreen.threeSentencesScreen.controller tappingFour = some tapped ∧
      tapped.selected.userSelectedText = textOfRows InfoScreen.threeSentences.wikiModel
        tapped.selected.isSelected := by
  obtain ⟨tapped, hrun⟩ : ∃ tapped, run InfoController.tap
    InfoScreen.threeSentencesScreen.controller tappingFour = some tapped := ⟨_, rfl⟩
  exact ⟨tapped, hrun, (saved_text_of_taps rfl rfl (by decide) hrun).2.1⟩

end LandCap
