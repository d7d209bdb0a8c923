import Mathlib.Data.List.Basic
import Mathlib.Logic.Relation

/-!
# View controllers on top of each other

A window is a pile of levels, the topmost first.  A level holds a navigation controller with its
stack, or something of the system's own; the lowest level is the window's root, and every other one
has been presented by a view controller on the level beneath it.

What an app does with its window is a sequence of `Move`s, and `Rules` say which moves its code
makes: who presents what, who pushes whom, what is popped and what is dismissed.  Two things follow
from the rules alone.

* `WellPresented.move` — every level keeps lying on the one it was presented from, although
  controllers are pushed on stacks that are covered, too.
* `Covered.move` — a level that lasts, because the rules never dismiss it, keeps what lies beneath
  it out of sight.  What is seen satisfies a predicate that the rules keep: what satisfies it brings
  up nothing that does not.
-/

set_option autoImplicit false

namespace Presentation

universe u v

variable {κ : Type u} {δ : Type v}

/-! ## Windows -/

/-- What a level holds. -/
inductive Content (κ : Type u) (δ : Type v) where
  /-- A navigation controller: its root, and what has been pushed, the latest last. -/
  | navigation (root : κ) (pushed : List κ)
  /-- A view controller of the system. -/
  | system (d : δ)
  deriving DecidableEq

namespace Content

/-- The view controllers on the stack of a level. -/
def controllers : Content κ δ → List κ
  | navigation root pushed => root :: pushed
  | system _ => []

/-- The view controller the user sees, when nothing covers the level. -/
def top : Content κ δ → Option κ
  | navigation root pushed => some (pushed.getLast?.getD root)
  | system _ => none

/-- `pushViewController`. -/
def push (x : κ) : Content κ δ → Content κ δ
  | navigation root pushed => navigation root (pushed ++ [x])
  | system d => system d

/-- `popViewController`. -/
def pop : Content κ δ → Content κ δ
  | navigation root pushed => navigation root pushed.dropLast
  | system d => system d

theorem mem_controllers_of_top {c : Content κ δ} {o : κ} (h : c.top = some o) :
    o ∈ c.controllers := by
  cases c with
  | system d => exact absurd h nofun
  | navigation root pushed =>
    obtain rfl := Option.some.inj h
    cases hlast : pushed.getLast? with
    | none => exact List.mem_cons_self
    | some x => exact List.mem_cons_of_mem root (List.mem_of_getLast? hlast)

theorem controllers_push {c : Content κ δ} {o : κ} (x : κ) (ho : o ∈ c.controllers) :
    (c.push x).controllers = c.controllers ++ [x] := by
  cases c with
  | system d => exact absurd ho List.not_mem_nil
  | navigation root pushed => rfl

theorem controllers_pop_subset (c : Content κ δ) : c.pop.controllers ⊆ c.controllers := by
  cases c with
  | system d => exact List.Subset.refl []
  | navigation root pushed => exact List.cons_subset_cons root (List.dropLast_subset pushed)

end Content

/-- A level, with the view controller that presented it. -/
structure Level (κ : Type u) (δ : Type v) where
  presenter : Option κ
  content : Content κ δ
  deriving DecidableEq

/-- The levels of a window, the topmost first. -/
abbrev Window (κ : Type u) (δ : Type v) := List (Level κ δ)

namespace Window

/-- The view controllers on the stacks of a window. -/
def controllers (w : Window κ δ) : List κ := w.flatMap fun l ↦ l.content.controllers

/-- The view controller the user sees. -/
def front : Window κ δ → Option κ
  | [] => none
  | l :: _ => l.content.top

variable [DecidableEq κ]

/-- `present`: it fails unless the view controller is on the topmost level. -/
def present (o : κ) (c : Content κ δ) : Window κ δ → Window κ δ
  | [] => []
  | l :: w => if o ∈ l.content.controllers then ⟨some o, c⟩ :: l :: w else l :: w

/-- `navigationController?.pushViewController`. -/
def push (o x : κ) : Window κ δ → Window κ δ
  | [] => []
  | l :: w =>
    if o ∈ l.content.controllers then { l with content := l.content.push x } :: w
    else l :: push o x w

omit [DecidableEq κ]

/-- `navigationController?.popViewController`, for the view controller the user sees. -/
def pop : Window κ δ → Window κ δ
  | [] => []
  | l :: w => { l with content := l.content.pop } :: w

/-- `dismiss`, for the view controller the user sees: its presenter takes the level away. -/
def dismiss : Window κ δ → Window κ δ
  | _ :: l :: w => l :: w
  | w => w

/-- `presentingViewController?.presentingViewController?.dismiss`, for the view controller the user
sees: two levels down, everything above is taken away. -/
def dismissPresenting : Window κ δ → Window κ δ
  | _ :: _ :: l :: w => l :: w
  | w => w

end Window

/-! ## Rules -/

/-- What the code of an app does with its window. -/
structure Rules (κ : Type u) (δ : Type v) where
  /-- The window may start with this. -/
  Starts : Content κ δ → Prop
  Presents : κ → Content κ δ → Prop
  /-- The view controller may push another on its navigation controller. -/
  Pushes : κ → κ → Prop
  /-- The stack may be popped to what is beneath this view controller. -/
  Pops : κ → Prop
  /-- The level may be dismissed by its presenter. -/
  Dismisses : Content κ δ → Prop
  /-- The two levels, the upper one first, may be dismissed together. -/
  DismissesBoth : Content κ δ → Content κ δ → Prop
  /-- The level is never dismissed. -/
  Lasts : Content κ δ → Prop
  not_lasts : ∀ {c}, Dismisses c → ¬Lasts c
  not_lasts_both : ∀ {c d}, DismissesBoth c d → ¬Lasts c ∧ ¬Lasts d
  /-- What has been pushed and popped does not change what a level is. -/
  starts_push : ∀ {c o x}, o ∈ c.controllers → Pushes o x → Starts c → Starts (c.push x)
  presents_push : ∀ {p c o x}, o ∈ c.controllers → Pushes o x → Presents p c →
    Presents p (c.push x)
  lasts_push : ∀ {c o x}, o ∈ c.controllers → Pushes o x → Lasts c → Lasts (c.push x)
  starts_pop : ∀ {c o}, c.top = some o → Pops o → Starts c → Starts c.pop
  presents_pop : ∀ {p c o}, c.top = some o → Pops o → Presents p c → Presents p c.pop
  lasts_pop : ∀ {c o}, c.top = some o → Pops o → Lasts c → Lasts c.pop

variable {R : Rules κ δ} {w w' : Window κ δ} {N N' : κ → Prop}

/-- The root of the window is one it may start with, and every other level has been presented from
the level beneath it. -/
inductive WellPresented (R : Rules κ δ) : Window κ δ → Prop
  | root {c : Content κ δ} (hc : R.Starts c) : WellPresented R [⟨none, c⟩]
  | presented {o : κ} {c : Content κ δ} {l : Level κ δ} {w : Window κ δ}
      (ho : o ∈ l.content.controllers) (hc : R.Presents o c) (hw : WellPresented R (l :: w)) :
      WellPresented R (⟨some o, c⟩ :: l :: w)

theorem WellPresented.of_append {upper lower : Window κ δ} {l : Level κ δ}
    (h : WellPresented R (upper ++ l :: lower)) : WellPresented R (l :: lower) := by
  induction upper with
  | nil => exact h
  | cons u upper ih =>
    cases upper with
    | nil =>
      cases h with
      | presented ho hc hw => exact hw
    | cons v upper =>
      cases h with
      | presented ho hc hw => exact ih hw

/-- A level that lies on another one has been presented from there. -/
theorem WellPresented.exists_presenter {upper lower : Window κ δ} {u l : Level κ δ}
    (h : WellPresented R (upper ++ u :: l :: lower)) :
    ∃ o ∈ l.content.controllers, u.presenter = some o ∧ R.Presents o u.content := by
  cases h.of_append with
  | presented ho hc hw => exact ⟨_, ho, rfl, hc⟩

/-- Nothing lies on a level that has no view controllers. -/
theorem WellPresented.eq_nil_of_controllers_eq_nil {upper lower : Window κ δ} {l : Level κ δ}
    (h : WellPresented R (upper ++ l :: lower)) (hl : l.content.controllers = []) :
    upper = [] := by
  rcases List.eq_nil_or_concat' upper with rfl | ⟨above, u, rfl⟩
  · rfl
  · rw [List.append_assoc, List.singleton_append] at h
    obtain ⟨o, ho, -⟩ := h.exists_presenter
    exact absurd (hl ▸ ho) List.not_mem_nil

section Moves

variable [DecidableEq κ]

/-- One thing the app does to its window; the view controllers that come with it satisfy `N`. -/
inductive Move (R : Rules κ δ) (N : κ → Prop) : Window κ δ → Window κ δ → Prop
  | present {o : κ} {c : Content κ δ} {l : Level κ δ} {w : Window κ δ}
      (ho : o ∈ l.content.controllers) (hc : R.Presents o c) (hN : ∀ x ∈ c.controllers, N x) :
      Move R N (l :: w) (⟨some o, c⟩ :: l :: w)
  | push {o x : κ} {w : Window κ δ} (hx : R.Pushes o x) (hN : N x) : Move R N w (w.push o x)
  | pop {o : κ} {l : Level κ δ} {w : Window κ δ} (ho : l.content.top = some o) (hpop : R.Pops o) :
      Move R N (l :: w) (Window.pop (l :: w))
  | dismiss {l m : Level κ δ} {w : Window κ δ} (hl : R.Dismisses l.content) :
      Move R N (l :: m :: w) (m :: w)
  | dismissBoth {l m n : Level κ δ} {w : Window κ δ}
      (hl : R.DismissesBoth l.content m.content) : Move R N (l :: m :: n :: w) (n :: w)

/-- The app does one thing after another. -/
abbrev Moves (R : Rules κ δ) (N : κ → Prop) : Window κ δ → Window κ δ → Prop :=
  Relation.ReflTransGen (Move R N)

theorem Move.mono (hN : ∀ x, N x → N' x) (h : Move R N w w') : Move R N' w w' := by
  cases h with
  | present ho hc hx => exact .present ho hc fun x hmem ↦ hN x (hx x hmem)
  | push hx hnew => exact .push hx (hN _ hnew)
  | pop ho hpop => exact .pop ho hpop
  | dismiss hl => exact .dismiss hl
  | dismissBoth hl => exact .dismissBoth hl

theorem Moves.mono (hN : ∀ x, N x → N' x) (h : Moves R N w w') : Moves R N' w w' := by
  induction h with
  | refl => exact .refl
  | tail _ hm ih => exact ih.tail (hm.mono hN)

theorem Moves.present {o : κ} {c : Content κ δ} (hc : R.Presents o c)
    (hN : ∀ x ∈ c.controllers, N x) : Moves R N w (w.present o c) := by
  cases w with
  | nil => exact .refl
  | cons l w =>
    rw [Window.present]
    split
    · rename_i ho
      exact .single (.present ho hc hN)
    · exact .refl

theorem Moves.push {o x : κ} (hx : R.Pushes o x) (hN : N x) : Moves R N w (w.push o x) :=
  .single (.push hx hN)

/-! ### Where view controllers come from -/

omit [DecidableEq κ] in
theorem Window.mem_controllers_cons {o : κ} {l : Level κ δ} :
    o ∈ Window.controllers (l :: w) ↔ o ∈ l.content.controllers ∨ o ∈ w.controllers := by
  rw [Window.controllers, Window.controllers, List.flatMap_cons, List.mem_append]

theorem Window.mem_controllers_push {o x y : κ} (h : y ∈ (w.push o x).controllers) :
    y ∈ w.controllers ∨ y = x := by
  induction w with
  | nil => exact Or.inl h
  | cons l w ih =>
    rw [Window.push] at h
    split at h
    · rename_i ho
      rw [mem_controllers_cons, Content.controllers_push x ho, List.mem_append,
        List.mem_singleton] at h
      rw [mem_controllers_cons]
      tauto
    · rw [mem_controllers_cons] at h ⊢
      exact h.elim (fun hl ↦ Or.inl (Or.inl hl)) fun hw ↦ (ih hw).imp_left Or.inr

/-- **A view controller was there before the move**, or has come with it. -/
theorem Move.mem_controllers {y : κ} (hm : Move R N w w') (h : y ∈ w'.controllers) :
    y ∈ w.controllers ∨ N y := by
  cases hm with
  | present ho hc hN =>
    rw [Window.mem_controllers_cons] at h
    exact h.symm.imp_right (hN y)
  | @push o x w hx hN =>
    exact (Window.mem_controllers_push h).imp_right fun (heq : y = x) ↦ heq ▸ hN
  | @pop o l w ho hpop =>
    rw [Window.pop, Window.mem_controllers_cons] at h
    rw [Window.mem_controllers_cons]
    exact Or.inl (h.imp_left fun hl ↦ Content.controllers_pop_subset l.content hl)
  | dismiss hl => exact Or.inl (Window.mem_controllers_cons.mpr (Or.inr h))
  | dismissBoth hl =>
    rw [Window.mem_controllers_cons, Window.mem_controllers_cons]
    exact Or.inl (Or.inr (Or.inr h))

theorem Moves.mem_controllers {y : κ} (hm : Moves R N w w') (h : y ∈ w'.controllers) :
    y ∈ w.controllers ∨ N y := by
  induction hm with
  | refl => exact Or.inl h
  | tail _ hm ih => exact (hm.mem_controllers h).elim ih Or.inr

/-! ## Every level lies on its presenter -/

theorem WellPresented.push {o x : κ} (h : WellPresented R w) (hx : R.Pushes o x) :
    WellPresented R (w.push o x) := by
  induction h with
  | @root c hc =>
    rw [Window.push]
    split
    · rename_i ho
      exact .root (R.starts_push ho hx hc)
    · exact .root hc
  | @presented p c l w hp hc hw ih =>
    rw [Window.push]
    split
    · rename_i ho
      exact .presented hp (R.presents_push ho hx hc) hw
    · -- the stack of the level beneath may have grown, and still holds the presenter
      rw [Window.push] at ih ⊢
      split
      · rename_i ho
        rw [if_pos ho] at ih
        refine .presented ?_ hc ih
        rw [Content.controllers_push x ho]
        exact List.mem_append_left [x] hp
      · rename_i ho
        rw [if_neg ho] at ih
        exact .presented hp hc ih

/-- **Every level keeps lying on the one it was presented from.** -/
theorem WellPresented.move (h : WellPresented R w) (hm : Move R N w w') : WellPresented R w' := by
  cases hm with
  | present ho hc hN => exact .presented ho hc h
  | push hx hN => exact h.push hx
  | pop ho hpop =>
    cases h with
    | root hc => exact .root (R.starts_pop ho hpop hc)
    | presented hp hc hw => exact .presented hp (R.presents_pop ho hpop hc) hw
  | dismiss hl =>
    cases h with
    | presented hp hc hw => exact hw
  | dismissBoth hl =>
    cases h with
    | presented hp hc hw =>
      cases hw with
      | presented hp' hc' hw' => exact hw'

theorem WellPresented.moves (h : WellPresented R w) (hm : Moves R N w w') :
    WellPresented R w' := by
  induction hm with
  | refl => exact h
  | tail _ hm ih => exact ih.move hm

end Moves

/-! ## What stays out of sight -/

/-- From the topmost level down to one that lasts, all view controllers satisfy `N`. -/
def Covered (R : Rules κ δ) (N : κ → Prop) : Window κ δ → Prop
  | [] => False
  | l :: w => (∀ o ∈ l.content.controllers, N o) ∧ (R.Lasts l.content ∨ Covered R N w)

theorem Covered.front {o : κ} (h : Covered R N w) (ho : w.front = some o) : N o := by
  cases w with
  | nil => exact h.elim
  | cons l w => exact h.1 o (Content.mem_controllers_of_top ho)

theorem Covered.mono (h : Covered R N w) (hN : ∀ o ∈ w.controllers, N o → N' o) :
    Covered R N' w := by
  induction w with
  | nil => exact h.elim
  | cons l w ih =>
    refine ⟨fun o ho ↦ hN o (Window.mem_controllers_cons.mpr (Or.inl ho)) (h.1 o ho),
      h.2.imp_right fun hw ↦ ih hw fun o ho ↦ ?_⟩
    exact hN o (Window.mem_controllers_cons.mpr (Or.inr ho))

theorem Covered.and (h : Covered R N w) (h' : Covered R N' w) :
    Covered R (fun o ↦ N o ∧ N' o) w := by
  induction w with
  | nil => exact h.elim
  | cons l w ih =>
    refine ⟨fun o ho ↦ ⟨h.1 o ho, h'.1 o ho⟩, ?_⟩
    rcases h.2 with hl | hw
    · exact Or.inl hl
    · exact h'.2.imp_right (ih hw)

section Moves

variable [DecidableEq κ]

/-- What satisfies `N` brings up nothing that does not, as long as what comes satisfies `M`. -/
structure Rules.Keeps (R : Rules κ δ) (M N : κ → Prop) : Prop where
  presents : ∀ {o c}, R.Presents o c → N o → (∀ x ∈ c.controllers, M x) → ∀ x ∈ c.controllers, N x
  pushes : ∀ {o x}, R.Pushes o x → N o → M x → N x

omit [DecidableEq κ] in
theorem Rules.keeps_of_imp {M : κ → Prop} (h : ∀ x, M x → N x) : R.Keeps M N where
  presents _ _ hM x hx := h x (hM x hx)
  pushes _ _ hx := h _ hx

theorem Covered.push {o x : κ} (h : Covered R N w) (hx : R.Pushes o x) (hN : N o → N x) :
    Covered R N (w.push o x) := by
  induction w with
  | nil => exact h.elim
  | cons l w ih =>
    rw [Window.push]
    split
    · rename_i ho
      refine ⟨fun y hy ↦ ?_, h.2.imp_left (R.lasts_push ho hx)⟩
      rw [Content.controllers_push x ho, List.mem_append, List.mem_singleton] at hy
      exact hy.elim (h.1 y) fun heq ↦ heq ▸ hN (h.1 o ho)
    · exact ⟨h.1, h.2.imp_right ih⟩

/-- **What lies beneath a level that lasts stays out of sight.** -/
theorem Covered.move {M : κ → Prop} (hR : R.Keeps M N) (h : Covered R N w) (hm : Move R M w w') :
    Covered R N w' := by
  cases hm with
  | present ho hc hM => exact ⟨hR.presents hc (h.1 _ ho) hM, Or.inr h⟩
  | push hx hM => exact h.push hx fun ho ↦ hR.pushes hx ho hM
  | @pop o l w ho hpop =>
    exact ⟨fun y hy ↦ h.1 y (Content.controllers_pop_subset l.content hy),
      h.2.imp_left (R.lasts_pop ho hpop)⟩
  | dismiss hl => exact h.2.resolve_left (R.not_lasts hl)
  | dismissBoth hl =>
    obtain ⟨hupper, hlower⟩ := R.not_lasts_both hl
    exact (h.2.resolve_left hupper).2.resolve_left hlower

theorem Covered.moves {M : κ → Prop} (hR : R.Keeps M N) (h : Covered R N w)
    (hm : Moves R M w w') : Covered R N w' := by
  induction hm with
  | refl => exact h
  | tail _ hm ih => exact ih.move hR hm

end Moves

end Presentation
