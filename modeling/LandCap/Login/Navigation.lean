import LandCap.Login.Basic

/-!
# How many screens are opened

`ConnectionController` waits for a connection at two moments, when its view is loaded and whenever
it is about to appear, and at each of them it pushes the next controller if there is one;
`PageController` pushes Home from the block of every flow that succeeds.  Neither remembers that it
has pushed already.

`Navigation` is an install with what this is about: what `ConnectionController` has pushed since it
was shown, and how often `nextController` has been called on the navigation stack the user sees.
Signing out presents a new stack, and a flow stays on the stack it was started on.

A user who starts a flow only when nothing can come of the flows started before keeps the second
number below two, and a connection that is not found twice in one showing keeps the first
(`at_most_one_screen`).  The invariant `Once` counts what has been opened together with what still
may be.
-/

set_option autoImplicit false

namespace LandCap

open Runs

/-! ## The navigation stack -/

/-- A controller that is put on the stack. -/
inductive Controller where
  | connection | home | page
  deriving DecidableEq

/-- The controller for a user who is, or is not, signed in. -/
def Session.controller (session : Session) : Controller :=
  if session.isSignedIn then .home else .page

structure Navigation where
  install : Install
  /-- The root of the stack the app has been started with. -/
  root : Controller
  /-- `ConnectionController` has loaded its view. -/
  loaded : Bool
  /-- What `ConnectionController` has pushed since it was shown. -/
  pushed : List Controller
  /-- The number of the stack the user sees. -/
  stack : ℕ
  /-- The stack each flow was started on. -/
  flowStack : ℕ → ℕ
  /-- How often `nextController` has been called on the stack the user sees. -/
  calls : ℕ

inductive NavigationEvent where
  /-- The app is started; the argument is the reading of `isConnectedToNetwork`, here and below. -/
  | didFinishLaunching (isConnectedToNetwork : Bool)
  | viewDidLoad (isConnectedToNetwork : Bool)
  | viewWillAppear (isConnectedToNetwork : Bool)
  | viewDidDisappear
  /-- Anything else that happens to the install. -/
  | app (e : Event)

/-- `application(_:didFinishLaunchingWithOptions:)`. -/
def Navigation.launched (install : Install) (isConnectedToNetwork : Bool) : Navigation where
  install := { install with pending := fun _ ↦ none, trapped := false }
  root := if isConnectedToNetwork then install.session.controller else .connection
  loaded := false
  pushed := []
  stack := 0
  flowStack := fun _ ↦ 0
  calls := 0

/-- `listenForConnection`. -/
def Navigation.listenForConnection (s : Navigation) (isConnectedToNetwork : Bool) : Navigation :=
  if isConnectedToNetwork then { s with pushed := s.pushed ++ [s.install.session.controller] }
  else s

/-- The stacks after an event of the install. -/
def Navigation.after (s : Navigation) (install : Install) : Event → Navigation
  | .tap id _ =>
    { s with install := install, flowStack := Function.update s.flowStack id s.stack }
  | .deliver id _ =>
    { s with
      install := install
      calls := if s.flowStack id = s.stack then
          s.calls + (install.opened.length - s.install.opened.length)
        else s.calls }
  | .signOut => { s with install := install, stack := s.stack + 1, calls := 0 }
  | _ => { s with install := install }

def Navigation.step (s : Navigation) : NavigationEvent → Option Navigation
  | .didFinishLaunching connected => some (.launched s.install connected)
  | .viewDidLoad connected =>
    if s.root = .connection ∧ s.loaded = false then
      some (Navigation.listenForConnection { s with loaded := true } connected)
    else none
  | .viewWillAppear connected =>
    if s.loaded then some (s.listenForConnection connected) else none
  | .viewDidDisappear => if s.loaded then some { s with pushed := [] } else none
  | .app e =>
    -- the app is started by `didFinishLaunching`
    match e with
    | .relaunch => none
    | e => (s.install.step e).map fun install ↦ s.after install e

/-- At most one controller has been pushed in this showing, and at most one Home has been opened on
this stack. -/
structure Navigation.AtMostOne (s : Navigation) : Prop where
  connection : s.pushed.length ≤ 1
  page : s.calls ≤ 1

/-! ## The condition -/

/-- The handler of the request may lead to `nextController`. -/
def Request.MayOpen : Request → Prop
  | .sendPasswordReset _ => False
  | _ => True

/-- The flow may still call `nextController`. -/
def Pending.MayOpen : Pending → Prop
  | .request r | .completion r _ _ => r.MayOpen
  | .block _ => True

/-- The tap starts a flow that may call `nextController`. -/
def Tap.MayOpen (session : Session) (t : Tap) : Prop :=
  ∃ p, t.start session = some p ∧ p.MayOpen

def Install.MayOpen (s : Install) (id : ℕ) : Prop :=
  ∃ p, s.pending id = some p ∧ p.MayOpen

/-- The flow was started on the stack the user sees, and may still open Home. -/
def Navigation.Waits (s : Navigation) (id : ℕ) : Prop :=
  s.flowStack id = s.stack ∧ s.install.MayOpen id

/-- `ConnectionController` finds no connection where it has pushed already, and a flow is only
started where Home has not been opened and no other flow may open it. -/
def Navigation.Careful (s : Navigation) : NavigationEvent → Prop
  | .viewWillAppear connected => connected = true → s.pushed = []
  | .app (.tap _ t) => t.MayOpen s.install.session → s.calls = 0 ∧ ∀ j, ¬s.Waits j
  | _ => True

/-! ## What may still be opened -/

/-- The handler of a flow that cannot open Home ends it. -/
theorem mayOpen_complete {session : Session} {auth : Option AuthUser} {r : Request}
    {authResult : Option AuthUser} {error : Option AuthError} {p : Pending}
    (h : (complete session auth r authResult error).next = some p) : r.MayOpen := by
  cases r with
  | sendPasswordReset email => exact absurd h (by simp [complete, Effect.skip])
  | _ => trivial

/-- **A flow that may open Home** could do so before, or has just been started. -/
theorem mayOpen_step {s s' : Install} {e : Event} {j : ℕ} (h : s.step e = some s')
    (hj : s'.MayOpen j) :
    s.MayOpen j ∨ ∃ t, e = .tap j t := by
  obtain ⟨p, hp, hopen⟩ := hj
  rcases Install.pending_step h hp with hp | ⟨t, rfl, -, -⟩ |
    ⟨r, authResult, error, -, hr, rfl⟩ | ⟨call, r, authResult, error, -, hr, hnext⟩
  · exact Or.inl ⟨p, hp, hopen⟩
  · exact Or.inr ⟨t, rfl⟩
  · exact Or.inl ⟨_, hr, hopen⟩
  · exact Or.inl ⟨_, hr, mayOpen_complete hnext⟩

/-- **Home is opened by a flow that may do so**, and may not do so afterwards. -/
theorem opened_step {s s' : Install} {e : Event} (h : s.step e = some s') :
    s'.opened = s.opened ∨ ∃ id call o, e = .deliver id call ∧ s'.opened = o :: s.opened ∧
      s.MayOpen id ∧ ¬s'.MayOpen id := by
  rcases Install.step_cases h with ⟨id, call, r, authResult, error, rfl, -, ha⟩ |
    ⟨id, call, o, rfl, ho, rfl⟩ | ⟨-, rfl⟩ | ⟨a, -, -, -, hopened⟩ | ⟨-, -, hopened, -⟩
  · exact Or.inl (Install.apply_eq_some ha).2.1
  · refine Or.inr ⟨id, call, o, rfl, rfl, ⟨_, ho, trivial⟩, fun ⟨p, hp, _⟩ ↦ ?_⟩
    exact absurd hp (by simp [Install.enter])
  · exact Or.inl rfl
  · exact Or.inl hopened
  · exact Or.inl hopened

/-! ## The invariant -/

/-- What has been opened and what still may be are at most one together. -/
structure Navigation.Once (s : Navigation) : Prop where
  connection : s.pushed.length ≤ 1
  unloaded : s.loaded = false → s.pushed = []
  flows : ∀ j, s.flowStack j ≤ s.stack
  single : ∀ i j, s.Waits i → s.Waits j → i = j
  idle : ∀ j, s.Waits j → s.calls = 0
  page : s.calls ≤ 1

section Step

variable {s s' : Navigation}

theorem Navigation.Once.atMostOne (h : s.Once) : s.AtMostOne := ⟨h.connection, h.page⟩

theorem once_launched (install : Install) (connected : Bool) :
    (Navigation.launched install connected).Once where
  connection := Nat.zero_le 1
  unloaded _ := rfl
  flows _ := le_rfl
  single i _ hi _ := by
    obtain ⟨-, p, hp, -⟩ := hi
    exact absurd hp (by simp [Navigation.launched])
  idle _ _ := rfl
  page := Nat.zero_le 1

/-- A step that lets no further flow wait, and opens nothing. -/
theorem Navigation.Once.of_waits (h : s.Once) (hpushed : s'.pushed = s.pushed)
    (hloaded : s'.loaded = s.loaded) (hflows : ∀ j, s'.flowStack j ≤ s'.stack)
    (hcalls : s'.calls = s.calls) (hwaits : ∀ j, s'.Waits j → s.Waits j) : s'.Once where
  connection := hpushed ▸ h.connection
  unloaded hl := hpushed.trans (h.unloaded (hloaded ▸ hl))
  flows := hflows
  single i j hi hj := h.single i j (hwaits i hi) (hwaits j hj)
  idle j hj := hcalls.trans (h.idle j (hwaits j hj))
  page := hcalls ▸ h.page

/-- `listenForConnection` finds no connection where it has pushed already. -/
theorem once_listen {connected : Bool} (h : s.Once) (hloaded : s.loaded = true)
    (hpushed : connected = true → s.pushed = []) : (s.listenForConnection connected).Once := by
  cases connected with
  | false => exact h
  | true =>
    refine ⟨?_, fun hl ↦ absurd (hloaded.symm.trans hl) (by decide), h.flows, h.single, h.idle,
      h.page⟩
    show (s.pushed ++ [s.install.session.controller]).length ≤ 1
    rw [hpushed rfl]
    exact le_rfl

/-- A flow is started where nothing waits and nothing has been opened, or cannot open Home. -/
theorem once_tap {id : ℕ} {t : Tap} {install : Install} (h : s.Once)
    (hc : s.Careful (.app (.tap id t))) (hstep : s.install.step (.tap id t) = some install) :
    (s.after install (.tap id t)).Once := by
  cases Install.stepped hstep
  set s' := s.after _ (.tap id t) with hs'
  have hflows : ∀ j, s'.flowStack j ≤ s'.stack := by
    intro j
    show Function.update s.flowStack id s.stack j ≤ s.stack
    rcases eq_or_ne j id with rfl | hne
    · rw [Function.update_self]
    · rw [Function.update_of_ne hne]
      exact h.flows j
  -- a flow that waits did so before, unless it is the one that has been started
  have hwaits : ∀ j, s'.Waits j → s.Waits j ∨ j = id ∧ t.MayOpen s.install.session := by
    rintro j ⟨hstack, p, hp, hopen⟩
    rcases update_eq_some hp with ⟨rfl, hstart⟩ | ⟨hne, hp⟩
    · exact Or.inr ⟨rfl, p, hstart, hopen⟩
    · have hflow : Function.update s.flowStack id s.stack j = s.stack := hstack
      rw [Function.update_of_ne hne] at hflow
      exact Or.inl ⟨hflow, p, hp, hopen⟩
  by_cases ht : t.MayOpen s.install.session
  · obtain ⟨hcalls, hnone⟩ := hc ht
    have hid : ∀ j, s'.Waits j → j = id := fun j hj ↦
      (hwaits j hj).elim (fun hold ↦ absurd hold (hnone j)) And.left
    exact ⟨h.connection, h.unloaded, hflows, fun i j hi hj ↦ (hid i hi).trans (hid j hj).symm,
      fun _ _ ↦ hcalls, h.page⟩
  · exact h.of_waits rfl rfl hflows rfl fun j hj ↦
      (hwaits j hj).elim (fun hold ↦ hold) fun hnew ↦ absurd hnew.2 ht

/-- A flow that opens Home was the only one waiting. -/
theorem once_deliver {id call : ℕ} {install : Install} (h : s.Once)
    (hstep : s.install.step (.deliver id call) = some install) :
    (s.after install (.deliver id call)).Once := by
  set s' := s.after install (.deliver id call) with hs'
  have hwaits : ∀ j, s'.Waits j → s.Waits j := fun j hj ↦
    ⟨hj.1, (mayOpen_step hstep hj.2).resolve_right (by rintro ⟨t, ht⟩; exact absurd ht (by simp))⟩
  rcases opened_step hstep with hopened | ⟨id', call', o, he, hopened, hopen, hclosed⟩
  · refine h.of_waits rfl rfl h.flows ?_ hwaits
    show (if s.flowStack id = s.stack then
      s.calls + (install.opened.length - s.install.opened.length) else s.calls) = s.calls
    rw [hopened, Nat.sub_self, Nat.add_zero, ite_self]
  · obtain ⟨rfl, rfl⟩ := Event.deliver.inj he
    by_cases hflow : s.flowStack id = s.stack
    · have hcalls : s'.calls = 1 := by
        show (if s.flowStack id = s.stack then
          s.calls + (install.opened.length - s.install.opened.length) else s.calls) = 1
        rw [if_pos hflow, h.idle id ⟨hflow, hopen⟩, hopened, List.length_cons]
        omega
      have hnone : ∀ j, ¬s'.Waits j := fun j hj ↦ by
        obtain rfl := h.single j id (hwaits j hj) ⟨hflow, hopen⟩
        exact hclosed hj.2
      exact ⟨h.connection, h.unloaded, h.flows, fun i _ hi _ ↦ absurd hi (hnone i),
        fun j hj ↦ absurd hj (hnone j), hcalls.le⟩
    · refine h.of_waits rfl rfl h.flows ?_ hwaits
      exact if_neg hflow

/-- **A careful step** keeps the invariant. -/
theorem once_step {e : NavigationEvent} (h : s.Once) (hc : s.Careful e)
    (hstep : s.step e = some s') : s'.Once := by
  cases e with
  | didFinishLaunching connected =>
    obtain rfl := Option.some.inj hstep
    exact once_launched _ _
  | viewDidLoad connected =>
    rw [Navigation.step] at hstep
    split at hstep
    · rename_i hload
      obtain rfl := Option.some.inj hstep
      have hempty := h.unloaded hload.2
      exact once_listen (s := { s with loaded := true })
        ⟨h.connection, fun _ ↦ hempty, h.flows, h.single, h.idle, h.page⟩ rfl fun _ ↦ hempty
    · exact absurd hstep (by simp)
  | viewWillAppear connected =>
    rw [Navigation.step] at hstep
    split at hstep
    · rename_i hloaded
      obtain rfl := Option.some.inj hstep
      exact once_listen h hloaded hc
    · exact absurd hstep (by simp)
  | viewDidDisappear =>
    rw [Navigation.step] at hstep
    split at hstep
    · obtain rfl := Option.some.inj hstep
      exact ⟨Nat.zero_le 1, fun _ ↦ rfl, h.flows, h.single, h.idle, h.page⟩
    · exact absurd hstep (by simp)
  | app e =>
    cases e with
    | relaunch => exact absurd hstep (by simp [Navigation.step])
    | tap id t =>
      obtain ⟨install, hi, rfl⟩ := Option.map_eq_some_iff.mp hstep
      exact once_tap h hc hi
    | deliver id call =>
      obtain ⟨install, hi, rfl⟩ := Option.map_eq_some_iff.mp hstep
      exact once_deliver h hi
    | signOut =>
      obtain ⟨install, -, rfl⟩ := Option.map_eq_some_iff.mp hstep
      -- no flow has been started on the new stack
      have hnone : ∀ j, ¬(s.after install .signOut).Waits j := fun j hj ↦
        absurd hj.1 (Nat.lt_succ_of_le (h.flows j)).ne
      exact ⟨h.connection, h.unloaded, fun j ↦ (h.flows j).trans (Nat.le_succ _),
        fun i _ hi _ ↦ absurd hi (hnone i), fun _ _ ↦ rfl, Nat.zero_le 1⟩
    | respond | cloud =>
      obtain ⟨install, hi, rfl⟩ := Option.map_eq_some_iff.mp hstep
      refine h.of_waits rfl rfl h.flows rfl fun j hj ↦ ⟨hj.1, ?_⟩
      exact (mayOpen_step hi hj.2).resolve_right (by rintro ⟨t, ht⟩; exact absurd ht (by simp))

end Step

/-! ## Runs -/

/-- **At most one screen is opened**: in a run whose steps are all careful, from the start of the
app on, `ConnectionController` pushes at most one controller in each showing, and `nextController`
is called at most once on the stack the user sees. -/
theorem at_most_one_screen {install : Install} {connected : Bool} {es : List NavigationEvent}
    (hm : Meets Navigation.step Navigation.Careful (.launched install connected) es) :
    Throughout Navigation.step Navigation.AtMostOne (.launched install connected) es := by
  intro bs hbs t hrun
  have honce := throughout_of_meets (fun s e s' h hc hstep ↦ once_step h hc hstep)
    (once_launched install connected) hm
  exact (honce bs hbs t hrun).atMostOne

/-- Signing in once, with the connection found when the view is about to appear. -/
def signInOnce : List NavigationEvent :=
  [.viewDidLoad false, .viewWillAppear true, .viewDidDisappear,
    .app (.tap 0 (.signInBtn (some "alice@example.org") (some "secret"))),
    .app (.respond 0 (some aliceAccount) none), .app (.deliver 0 0), .app (.deliver 0 0)]

theorem at_most_one_screen_signInOnce :
    Throughout Navigation.step Navigation.AtMostOne
      (.launched (.fresh (.start .plain [])) false) signInOnce := by
  refine at_most_one_screen ?_
  rw [signInOnce, meets_cons rfl, meets_cons rfl, meets_cons rfl, meets_cons rfl, meets_cons rfl,
    meets_cons rfl, meets_cons rfl]
  refine ⟨trivial, fun _ ↦ rfl, trivial, fun _ ↦ ⟨rfl, ?_⟩, trivial, trivial, trivial, trivial⟩
  rintro j ⟨-, p, hp, -⟩
  have hnone : (none : Option Pending) = some p := hp
  exact absurd hnone (by simp)

/-- The connection is found twice in one showing. -/
def foundTwice : List NavigationEvent := [.viewDidLoad true, .viewWillAppear true]

/-- The user taps on Sign In twice. -/
def signInTwice : List NavigationEvent :=
  [.app (.tap 0 (.signInBtn (some "alice@example.org") (some "secret"))),
    .app (.tap 1 (.signInBtn (some "alice@example.org") (some "secret"))),
    .app (.respond 0 (some aliceAccount) none), .app (.respond 1 (some aliceAccount) none),
    .app (.deliver 0 0), .app (.deliver 0 0), .app (.deliver 1 1), .app (.deliver 1 1)]

/-- **More than one screen can be opened**, by each of the two controllers. -/
theorem not_at_most_one_screen :
    (¬∀ es t, run Navigation.step (.launched (.fresh (.start .plain [])) false) es = some t →
      t.pushed.length ≤ 1) ∧
    ¬∀ es t, run Navigation.step (.launched (.fresh (.start .plain [])) true) es = some t →
      t.calls ≤ 1 := by
  constructor
  · intro h
    obtain ⟨t, ht, htwo⟩ : ∃ t, run Navigation.step (.launched (.fresh (.start .plain [])) false)
        foundTwice = some t ∧ t.pushed.length = 2 := ⟨_, rfl, rfl⟩
    exact absurd (h _ t ht) (by rw [htwo]; decide)
  · intro h
    obtain ⟨t, ht, htwo⟩ : ∃ t, run Navigation.step (.launched (.fresh (.start .plain [])) true)
        signInTwice = some t ∧ t.calls = 2 := ⟨_, rfl, rfl⟩
    exact absurd (h _ t ht) (by rw [htwo]; decide)

end LandCap
