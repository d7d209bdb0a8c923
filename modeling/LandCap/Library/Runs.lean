import Mathlib.Data.Option.Basic
import Mathlib.Data.List.Infix

/-!
# Runs of a labelled transition system

A system is a partial step function `step : σ → α → Option σ`: the label `a` is enabled in `s`
when `step s a` is a state.  `run` takes a list of labels one after another, and everything a
concurrent program does under one schedule is one such list, so a statement about every
interleaving is a statement about every list of labels.

Two things are said about a run besides where it ends:

* `Meets step P s as` — every step of the run is taken in a state, and with a label, that satisfy
  `P`.  This is how a condition on the *schedule* is put.
* `Throughout step J s as` — every state the run passes through satisfies `J`.

`run_invariant` is the induction every safety proof here goes through, and
`meets_iff_throughout` is the sharp form of it: when a step keeps `J` exactly if it meets `P`, the
runs whose steps all meet `P` are exactly the runs that never leave `J`.

`without` is the schedule of a run with some of its steps taken out, and `run_without` the lockstep
simulation that compares the two runs.
-/

set_option autoImplicit false

namespace Runs

universe u v

variable {σ : Type u} {α : Type v}

/-- Take the labels in order; `none` as soon as one of them is not enabled. -/
def run (step : σ → α → Option σ) : σ → List α → Option σ
  | s, [] => some s
  | s, a :: as => (step s a).bind fun s' ↦ run step s' as

/-- Every step of the run from `s` satisfies `P` in the state it is taken in. -/
def Meets (step : σ → α → Option σ) (P : σ → α → Prop) : σ → List α → Prop
  | _, [] => True
  | s, a :: as => P s a ∧ ∀ s', step s a = some s' → Meets step P s' as

/-- Every state of the run from `s`, the first and the last included, satisfies `J`. -/
def Throughout (step : σ → α → Option σ) (J : σ → Prop) (s : σ) (as : List α) : Prop :=
  ∀ bs, bs <+: as → ∀ t, run step s bs = some t → J t

variable {step : σ → α → Option σ} {P : σ → α → Prop} {I J : σ → Prop}

@[simp] theorem run_nil (s : σ) : run step s [] = some s := rfl

theorem run_cons (s : σ) (a : α) (as : List α) :
    run step s (a :: as) = (step s a).bind fun s' ↦ run step s' as := rfl

theorem run_cons_eq_some {s t : σ} {a : α} {as : List α} :
    run step s (a :: as) = some t ↔ ∃ s', step s a = some s' ∧ run step s' as = some t := by
  rw [run_cons, Option.bind_eq_some_iff]

theorem run_append (s : σ) (as bs : List α) :
    run step s (as ++ bs) = (run step s as).bind fun t ↦ run step t bs := by
  induction as generalizing s with
  | nil => rfl
  | cons a as ih =>
    rw [List.cons_append, run_cons, run_cons, Option.bind_assoc]
    exact congrArg _ (funext fun s' ↦ ih s')

theorem meets_cons {s s' : σ} {a : α} {as : List α} (h : step s a = some s') :
    Meets step P s (a :: as) ↔ P s a ∧ Meets step P s' as := by
  refine and_congr_right fun _ ↦ ⟨fun hm ↦ hm s' h, fun hm t ht ↦ ?_⟩
  obtain rfl : s' = t := Option.some.inj (h.symm.trans ht)
  exact hm

/-- Whether the steps of a run satisfy a condition can be found out by taking them. -/
instance Meets.instDecidable (step : σ → α → Option σ) (P : σ → α → Prop)
    [∀ s a, Decidable (P s a)] : (s : σ) → (as : List α) → Decidable (Meets step P s as)
  | _, [] => inferInstanceAs (Decidable True)
  | s, a :: as =>
    have : Decidable (∀ s', step s a = some s' → Meets step P s' as) :=
      match step s a with
      | none => isTrue (by simp)
      | some s' =>
        match Meets.instDecidable step P s' as with
        | isTrue h => isTrue fun _ hs ↦ Option.some.inj hs ▸ h
        | isFalse h => isFalse fun hall ↦ h (hall s' rfl)
    inferInstanceAs (Decidable (P s a ∧ _))

theorem Meets.mono {Q : σ → α → Prop} (hPQ : ∀ s a, P s a → Q s a) {s : σ} {as : List α}
    (h : Meets step P s as) : Meets step Q s as := by
  induction as generalizing s with
  | nil => trivial
  | cons a as ih => exact ⟨hPQ s a h.1, fun s' hs ↦ ih (h.2 s' hs)⟩

theorem Meets.and {Q : σ → α → Prop} {s : σ} {as : List α} (h : Meets step P s as)
    (hQ : Meets step Q s as) : Meets step (fun s a ↦ P s a ∧ Q s a) s as := by
  induction as generalizing s with
  | nil => trivial
  | cons a as ih => exact ⟨⟨h.1, hQ.1⟩, fun s' hs ↦ ih (h.2 s' hs) (hQ.2 s' hs)⟩

/-- A condition on the labels alone can be added to a condition on the steps. -/
theorem Meets.and_mem {Q : α → Prop} {s : σ} {as : List α} (h : Meets step P s as)
    (hQ : ∀ a ∈ as, Q a) : Meets step (fun s a ↦ Q a ∧ P s a) s as := by
  induction as generalizing s with
  | nil => trivial
  | cons a as ih =>
    exact ⟨⟨hQ a List.mem_cons_self, h.1⟩,
      fun s' hs ↦ ih (h.2 s' hs) fun b hb ↦ hQ b (List.mem_cons_of_mem a hb)⟩

/-- A condition on the labels alone. -/
theorem Meets.of_mem {Q : α → Prop} {s : σ} {as : List α} (hQ : ∀ a ∈ as, Q a) :
    Meets step (fun _ a ↦ Q a) s as := by
  induction as generalizing s with
  | nil => trivial
  | cons a as ih =>
    exact ⟨hQ a List.mem_cons_self, fun _ _ ↦ ih fun b hb ↦ hQ b (List.mem_cons_of_mem a hb)⟩

theorem Meets.initial {s : σ} {as bs : List α} (h : Meets step P s as) (hp : bs <+: as) :
    Meets step P s bs := by
  induction bs generalizing s as with
  | nil => trivial
  | cons b bs ih =>
    obtain ⟨cs, rfl⟩ := hp
    exact ⟨h.1, fun s' hs ↦ ih (h.2 s' hs) ⟨cs, rfl⟩⟩

theorem Meets.of_append {s t : σ} {as bs : List α} (h : Meets step P s (as ++ bs))
    (hrun : run step s as = some t) : Meets step P t bs := by
  induction as generalizing s with
  | nil => exact Option.some.inj hrun ▸ h
  | cons a as ih =>
    obtain ⟨s', hs, hrest⟩ := run_cons_eq_some.mp hrun
    exact ih (h.2 s' hs) hrest

theorem Meets.append {s t : σ} {as bs : List α} (h : Meets step P s as)
    (hrun : run step s as = some t) (hbs : Meets step P t bs) : Meets step P s (as ++ bs) := by
  induction as generalizing s with
  | nil => exact Option.some.inj hrun ▸ hbs
  | cons a as ih =>
    obtain ⟨s', hs, hrest⟩ := run_cons_eq_some.mp hrun
    exact (meets_cons hs).mpr ⟨h.1, ih (h.2 s' hs) hrest⟩

/-- A run that does not meet `P` takes a step that does not satisfy it. -/
theorem exists_of_not_meets {s : σ} {as : List α} (h : ¬Meets step P s as) :
    ∃ bs a cs m, as = bs ++ a :: cs ∧ run step s bs = some m ∧ ¬P m a := by
  induction as generalizing s with
  | nil => exact absurd trivial h
  | cons a as ih =>
    by_cases ha : P s a
    · obtain ⟨s', hs, hm⟩ : ∃ s', step s a = some s' ∧ ¬Meets step P s' as := by
        by_contra hno
        push Not at hno
        exact h ⟨ha, hno⟩
      obtain ⟨bs, b, cs, m, rfl, hrun, hb⟩ := ih hm
      exact ⟨a :: bs, b, cs, m, rfl, run_cons_eq_some.mpr ⟨s', hs, hrun⟩, hb⟩
    · exact ⟨[], a, as, s, rfl, rfl, ha⟩

/-- **The invariant rule.**  What every step that meets `P` preserves holds at the end of every
run whose steps all meet `P`. -/
theorem run_invariant (hstep : ∀ s a s', I s → P s a → step s a = some s' → I s') {s t : σ}
    {as : List α} (hs : I s) (hm : Meets step P s as) (h : run step s as = some t) : I t := by
  induction as generalizing s with
  | nil => exact Option.some.inj h ▸ hs
  | cons a as ih =>
    obtain ⟨s', hs', hr⟩ := run_cons_eq_some.mp h
    exact ih (hstep s a s' hs hm.1 hs') (hm.2 s' hs') hr

/-- The invariant rule, for every state the run passes through. -/
theorem throughout_of_meets (hstep : ∀ s a s', I s → P s a → step s a = some s' → I s') {s : σ}
    {as : List α} (hs : I s) (hm : Meets step P s as) : Throughout step I s as :=
  fun _ hp _ h ↦ run_invariant hstep hs (hm.initial hp) h

/-- The invariant rule for what every step preserves. -/
theorem run_preserves (hstep : ∀ s a s', I s → step s a = some s' → I s') {s t : σ}
    {as : List α} (hs : I s) (h : run step s as = some t) : I t :=
  run_invariant (fun s a s' hi _ hs' ↦ hstep s a s' hi hs') hs
    (Meets.of_mem (Q := fun _ ↦ True) fun _ _ ↦ trivial) h

theorem Throughout.tail {s s' : σ} {a : α} {as : List α} (h : Throughout step J s (a :: as))
    (hs : step s a = some s') : Throughout step J s' as := by
  intro bs hp t hr
  exact h (a :: bs) ((List.prefix_cons_inj a).mpr hp) t (run_cons_eq_some.mpr ⟨s', hs, hr⟩)

theorem throughout_nil {s : σ} (h : J s) : Throughout step J s [] := by
  intro bs hp t hr
  obtain rfl := List.prefix_nil.mp hp
  exact Option.some.inj hr ▸ h

theorem Throughout.cons {s s' : σ} {a : α} {as : List α} (hs : J s) (h : step s a = some s')
    (hrest : Throughout step J s' as) : Throughout step J s (a :: as) := by
  intro bs hp t hr
  cases bs with
  | nil => exact Option.some.inj hr ▸ hs
  | cons b bs =>
    obtain ⟨rfl, hp'⟩ := List.cons_prefix_cons.mp hp
    obtain ⟨s'', hs'', hr'⟩ := run_cons_eq_some.mp hr
    obtain rfl : s' = s'' := Option.some.inj (h.symm.trans hs'')
    exact hrest bs hp' t hr'

theorem Throughout.append {s t : σ} {as bs : List α} (h : Throughout step J s as)
    (hr : run step s as = some t) (hrest : Throughout step J t bs) :
    Throughout step J s (as ++ bs) := by
  induction as generalizing s with
  | nil => exact Option.some.inj hr ▸ hrest
  | cons a as ih =>
    obtain ⟨s', hs, hr'⟩ := run_cons_eq_some.mp hr
    exact .cons (h [] List.nil_prefix s rfl) hs (ih (h.tail hs) hr')

/-- **The exact condition.**  When, inside the invariant `I`, a step from a `J`-state ends in a
`J`-state exactly if it meets `P`, a run never leaves `J` exactly if all of its steps meet `P`. -/
theorem meets_iff_throughout (hI : ∀ s a s', I s → J s → P s a → step s a = some s' → I s')
    (hJ : ∀ s a s', I s → J s → step s a = some s' → (J s' ↔ P s a))
    {s t : σ} {as : List α} (hs : I s) (hJs : J s) (h : run step s as = some t) :
    Meets step P s as ↔ Throughout step J s as := by
  constructor
  · intro hm
    have hIJ : Throughout step (fun s ↦ I s ∧ J s) s as :=
      throughout_of_meets
        (fun s a s' hi hp hs' ↦ ⟨hI s a s' hi.1 hi.2 hp hs', (hJ s a s' hi.1 hi.2 hs').mpr hp⟩)
        ⟨hs, hJs⟩ hm
    exact fun bs hp t hr ↦ (hIJ bs hp t hr).2
  · intro hT
    induction as generalizing s with
    | nil => trivial
    | cons a as ih =>
      obtain ⟨s', hs', hr⟩ := run_cons_eq_some.mp h
      have hJs' : J s' :=
        hT [a] (by simp) s' (run_cons_eq_some.mpr ⟨s', hs', rfl⟩)
      have hP : P s a := (hJ s a s' hs hJs hs').mp hJs'
      refine ⟨hP, fun s'' hs'' ↦ ?_⟩
      obtain rfl : s' = s'' := Option.some.inj (hs'.symm.trans hs'')
      exact ih (hI s a s' hs hJs hP hs') hJs' hr (hT.tail hs')

/-! ## Taking steps out of a run -/

variable (step) in
/-- The labels of the run from `s` whose steps are not hidden. -/
def without (hidden : σ → α → Prop) [∀ s a, Decidable (hidden s a)] : σ → List α → List α
  | _, [] => []
  | s, a :: as =>
    let rest := (step s a).elim [] fun s' ↦ without hidden s' as
    if hidden s a then rest else a :: rest

/-- **Lockstep.**  When a hidden step can be ignored and a visible step can be followed, the run
without its hidden steps follows the whole run.  The relation may depend on the labels still to
come. -/
theorem run_without {hidden : σ → α → Prop} [∀ s a, Decidable (hidden s a)]
    {R : List α → σ → σ → Prop}
    (hhidden : ∀ {as s m a s'}, R (a :: as) s m → hidden s a → step s a = some s' → R as s' m)
    (hvisible : ∀ {as s m a s'}, R (a :: as) s m → ¬hidden s a → step s a = some s' →
      ∃ m', step m a = some m' ∧ R as s' m')
    {s t m : σ} {as : List α} (hR : R as s m) (h : run step s as = some t) :
    ∃ t', run step m (without step hidden s as) = some t' ∧ R [] t t' := by
  induction as generalizing s m with
  | nil =>
    obtain rfl := Option.some.inj h
    exact ⟨m, rfl, hR⟩
  | cons a as ih =>
    obtain ⟨s', hs, hrun⟩ := run_cons_eq_some.mp h
    rw [without, hs, Option.elim_some]
    by_cases ha : hidden s a
    · rw [if_pos ha]
      exact ih (hhidden hR ha hs) hrun
    · rw [if_neg ha]
      obtain ⟨m', hm, hR'⟩ := hvisible hR ha hs
      obtain ⟨t', ht, hend⟩ := ih hR' hrun
      exact ⟨t', run_cons_eq_some.mpr ⟨m', hm, ht⟩, hend⟩

end Runs
