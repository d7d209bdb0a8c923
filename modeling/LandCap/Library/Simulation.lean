import LandCap.Library.Runs
import Mathlib.Data.Option.Defs

/-!
# One system follows another

Two ways in which the runs of one system say something about the runs of another.

* `run_follows` — every step of the one is matched by a *run* of the other, which may be empty or
  of any length.  A condition `J` on the states the first run passes through is handed on as a
  condition `J'` on the states the second one passes through, and likewise for the steps.
* `Lockstep` — the two take the same labels one by one, and a label is enabled in both or in
  neither.  Then whole runs are possible in both or in neither, and end in related states
  (`Lockstep.run`).
-/

set_option autoImplicit false

namespace Runs

universe u v w x

variable {σ : Type u} {α : Type v} {τ : Type w} {β : Type x}
variable {step : σ → α → Option σ} {step' : τ → β → Option τ}

/-! ## Steps matched by runs -/

section Follows

variable {P : σ → α → Prop} {P' : τ → β → Prop} {J : σ → Prop} {J' : τ → Prop}
  {R : σ → τ → Prop}

/-- **A run is followed** when each of its steps is. -/
theorem run_follows (hJ : ∀ s t, R s t → J s → J' t)
    (hstep : ∀ s a s' t, R s t → P s a → J s → J s' → step s a = some s' →
      ∃ bs t', run step' t bs = some t' ∧ Meets step' P' t bs ∧ Throughout step' J' t bs ∧ R s' t')
    {s s' : σ} {t : τ} {as : List α} (hR : R s t) (hP : Meets step P s as)
    (hT : Throughout step J s as) (hrun : run step s as = some s') :
    ∃ bs t', run step' t bs = some t' ∧ Meets step' P' t bs ∧ Throughout step' J' t bs ∧
      R s' t' := by
  induction as generalizing s t with
  | nil =>
    obtain rfl := Option.some.inj hrun
    exact ⟨[], t, rfl, trivial, throughout_nil (hJ s t hR (hT [] List.nil_prefix s rfl)), hR⟩
  | cons a as ih =>
    obtain ⟨s₁, hs, hrest⟩ := run_cons_eq_some.mp hrun
    have hJs : J s := hT [] List.nil_prefix s rfl
    have hJs₁ : J s₁ := hT.tail hs [] List.nil_prefix s₁ rfl
    obtain ⟨bs, t₁, hbs, hP₁, hT₁, hR₁⟩ := hstep s a s₁ t hR hP.1 hJs hJs₁ hs
    obtain ⟨cs, t', hcs, hP₂, hT₂, hR'⟩ := ih hR₁ (hP.2 s₁ hs) (hT.tail hs) hrest
    refine ⟨bs ++ cs, t', ?_, hP₁.append hbs hP₂, hT₁.append hbs hT₂, hR'⟩
    rw [run_append, hbs, Option.bind_some, hcs]

end Follows

/-! ## The same labels -/

section Lockstep

variable {τ : Type w} {step' : τ → α → Option τ} {P : σ → α → Prop} {R : σ → τ → Prop}

/-- From related states, a label that satisfies `P` is enabled in both systems or in neither, and
leads to related states. -/
def Lockstep (step : σ → α → Option σ) (step' : τ → α → Option τ) (P : σ → α → Prop)
    (R : σ → τ → Prop) : Prop :=
  ∀ {s t a}, R s t → P s a → Option.Rel R (step s a) (step' t a)

/-- **Whole runs go in lockstep.** -/
theorem Lockstep.run (h : Lockstep step step' P R) {s : σ} {t : τ} {as : List α} (hR : R s t)
    (hP : Meets step P s as) : Option.Rel R (run step s as) (run step' t as) := by
  induction as generalizing s t with
  | nil => exact .some hR
  | cons a as ih =>
    rw [run_cons, run_cons]
    have hstep := h hR hP.1
    cases hs : step s a with
    | none =>
      rw [hs] at hstep
      cases ht : step' t a with
      | none => exact .none
      | some t₁ => exact absurd (ht ▸ hstep) nofun
    | some s₁ =>
      rw [hs] at hstep
      cases ht : step' t a with
      | none => exact absurd (ht ▸ hstep) nofun
      | some t₁ =>
        rw [ht] at hstep
        cases hstep with
        | some hR₁ => exact ih hR₁ (hP.2 s₁ hs)

/-- A run that can be taken is followed. -/
theorem Lockstep.exists_run (h : Lockstep step step' P R) {s s' : σ} {t : τ} {as : List α}
    (hR : R s t) (hP : Meets step P s as) (hrun : Runs.run step s as = some s') :
    ∃ t', Runs.run step' t as = some t' ∧ R s' t' := by
  have hrel := h.run hR hP
  rw [hrun] at hrel
  cases ht : Runs.run step' t as with
  | none => exact absurd (ht ▸ hrel) nofun
  | some t' =>
    rw [ht] at hrel
    cases hrel with
    | some hR' => exact ⟨t', rfl, hR'⟩

end Lockstep

end Runs
