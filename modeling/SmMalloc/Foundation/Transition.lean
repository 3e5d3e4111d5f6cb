import Mathlib.Data.List.Basic

namespace Foundation

/-!
# Transition systems, invariants and forward simulation

A system has start states, a guard that says which actions are permitted in a
state, and a total function for the effect of an action.  All nondeterminism
is in the choice of the action.

`Reachable.invariant` is the one induction over runs: what every start state
has and every permitted step keeps holds in every reachable state.  `restrict`
strengthens the guard, for properties that hold only in runs whose steps meet
a further condition.  `Simulation.run` lifts a step-by-step simulation to whole
runs, with the stuttering steps dropped from the abstract run.  `run_closed` is
for what some actions end and others bring about again.
-/

/-- A state machine with guarded deterministic actions. -/
structure Transition (State Action : Type*) where
  start : State -> Prop
  allowed : State -> Action -> Prop
  next : State -> Action -> State

namespace Transition

variable {State Action : Type*} (system : Transition State Action)

/-- The states that a run of permitted actions can reach. -/
inductive Reachable : State -> Prop
  | start {state : State} : system.start state -> Reachable state
  | step {state : State} {action : Action} : Reachable state -> system.allowed state action ->
      Reachable (system.next state action)

/-- The same system, with a further condition on every step. -/
def restrict (condition : State -> Action -> Prop) : Transition State Action where
  start := system.start
  allowed := fun state action => system.allowed state action ∧ condition state action
  next := system.next

/-- The state after a list of actions. -/
def run : State -> List Action -> State
  | state, [] => state
  | state, action :: rest => run (system.next state action) rest

/-- Every action of the list is permitted where it is taken. -/
def Permitted : State -> List Action -> Prop
  | _, [] => True
  | state, action :: rest =>
      system.allowed state action ∧ Permitted (system.next state action) rest

instance decidablePermitted [forall state action, Decidable (system.allowed state action)] :
    forall (state : State) (actions : List Action), Decidable (system.Permitted state actions)
  | _, [] => inferInstanceAs (Decidable True)
  | state, action :: rest =>
      have := decidablePermitted (system.next state action) rest
      inferInstanceAs (Decidable (_ ∧ _))

variable {system}

/-- What holds at the start and is kept by every permitted step holds in
every reachable state.  A step may use what is already known of its source. -/
theorem Reachable.invariant {property : State -> Prop} {state : State}
    (reachable : system.Reachable state)
    (atStart : forall first, system.start first -> property first)
    (kept : forall before action, system.Reachable before -> property before ->
      system.allowed before action -> property (system.next before action)) : property state := by
  induction reachable with
  | start first => exact atStart _ first
  | step earlier permitted ih => exact kept _ _ earlier ih permitted

/-- A system that starts anywhere another does, and permits all that the other
permits with the same effect, reaches whatever the other reaches. -/
theorem Reachable.mono {other : Transition State Action} {state : State}
    (reachable : system.Reachable state) (same : other.next = system.next)
    (starts : forall first, system.start first -> other.start first)
    (permits : forall state action, system.allowed state action -> other.allowed state action) :
    other.Reachable state := by
  induction reachable with
  | start first => exact Reachable.start (starts _ first)
  | step _ permitted ih =>
      rw [← same]
      exact Reachable.step ih (permits _ _ permitted)

theorem Reachable.of_restrict {condition : State -> Action -> Prop} {state : State}
    (reachable : (system.restrict condition).Reachable state) : system.Reachable state :=
  reachable.mono rfl (fun _ => id) (fun _ _ => And.left)

theorem Reachable.after {state : State} (reachable : system.Reachable state)
    {actions : List Action} (permitted : system.Permitted state actions) :
    system.Reachable (system.run state actions) := by
  induction actions generalizing state with
  | nil => exact reachable
  | cons action rest ih => exact ih (Reachable.step reachable permitted.1) permitted.2

theorem permitted_append (system : Transition State Action) (earlier later : List Action) :
    forall state, system.Permitted state (earlier ++ later) <->
      system.Permitted state earlier ∧ system.Permitted (system.run state earlier) later := by
  induction earlier with
  | nil => exact fun _ => (and_iff_right trivial).symm
  | cons action rest ih => exact fun state => (and_congr_right (fun _ => ih _)).trans and_assoc.symm

theorem run_append (system : Transition State Action) (earlier later : List Action) :
    forall state, system.run state (earlier ++ later) =
      system.run (system.run state earlier) later := by
  induction earlier with
  | nil => exact fun _ => rfl
  | cons action rest ih => exact fun state => ih (system.next state action)

/-- Systems may differ in what they permit, and still have the same runs. -/
theorem run_congr (system other : Transition State Action)
    (same : forall state action, other.next state action = system.next state action)
    (actions : List Action) : forall state, other.run state actions = system.run state actions := by
  induction actions with
  | nil => exact fun _ => rfl
  | cons action rest ih =>
      intro state
      rw [run, run, same state action]
      exact ih (system.next state action)

/-- The condition has no influence on what a step does. -/
theorem run_restrict (condition : State -> Action -> Prop) (actions : List Action) :
    forall state, (system.restrict condition).run state actions = system.run state actions :=
  run_congr system (system.restrict condition) (fun _ _ => rfl) actions

/-- A permitted run meets a further condition when each of its steps does. -/
theorem permitted_restrict_iff (system : Transition State Action)
    (condition : State -> Action -> Prop) (actions : List Action) :
    forall state, (system.restrict condition).Permitted state actions <->
      system.Permitted state actions ∧ forall before action after,
        actions = before ++ action :: after -> condition (system.run state before) action := by
  induction actions with
  | nil =>
      intro state
      refine ⟨fun _ => ⟨trivial, fun before action after parts => ?_⟩, fun _ => trivial⟩
      cases before <;> cases parts
  | cons first rest ih =>
      intro state
      constructor
      · rintro ⟨⟨allowed, met⟩, later⟩
        rcases (ih _).mp later with ⟨permitted, each⟩
        refine ⟨⟨allowed, permitted⟩, fun before action after parts => ?_⟩
        cases before with
        | nil =>
            cases parts
            exact met
        | cons _ before =>
            injection parts with same parts
            subst same
            exact each before action after parts
      · rintro ⟨⟨allowed, permitted⟩, each⟩
        refine ⟨⟨allowed, each [] first rest rfl⟩, (ih _).mpr ⟨permitted, ?_⟩⟩
        intro before action after parts
        exact each (first :: before) action after (congrArg (first :: ·) parts)

/-! ## Forward simulation -/

variable {Abstract Event : Type*}

/-- A path of labelled abstract steps. -/
inductive Path (step : Abstract -> Event -> Abstract -> Prop) :
    Abstract -> List Event -> Abstract -> Prop
  | done (state : Abstract) : Path step state [] state
  | cons {first middle last : Abstract} {event : Event} {events : List Event} :
      step first event middle -> Path step middle events last ->
      Path step first (event :: events) last

/-- Whatever an action opens, a later one closes. -/
def Closed (opens closes : Action -> Prop) : List Action -> Prop
  | [] => True
  | action :: rest =>
      (opens action -> ∃ later, later ∈ rest ∧ closes later) ∧ Closed opens closes rest

theorem closed_of_none {opens closes : Action -> Prop} {actions : List Action}
    (none : forall action, action ∈ actions -> ¬ opens action) : Closed opens closes actions := by
  induction actions with
  | nil => trivial
  | cons action rest ih =>
      refine ⟨fun opened => absurd opened (none action List.mem_cons_self), ih ?_⟩
      exact fun later member => none later (List.mem_cons_of_mem action member)

/-- What only an opening action ends, and every closing action brings about,
holds after a run in which everything is closed again. -/
theorem run_closed {opens closes : Action -> Prop} (good property : State -> Prop)
    (stays : forall state action, good state -> system.allowed state action ->
      good (system.next state action))
    (kept : forall state action, good state -> system.allowed state action -> ¬ opens action ->
      property state -> property (system.next state action))
    (established : forall state action, good state -> system.allowed state action ->
      closes action -> property (system.next state action))
    {actions : List Action} : forall {state : State}, good state -> property state ->
    system.Permitted state actions -> Closed opens closes actions ->
    property (system.run state actions) := by
  -- on the way the property holds, or it is yet to be brought about
  suffices forall state, good state -> system.Permitted state actions ->
      Closed opens closes actions ->
      (property state ∨ ∃ later, later ∈ actions ∧ closes later) ->
      property (system.run state actions) from
    fun {_} here holds permitted closed => this _ here permitted closed (Or.inl holds)
  induction actions with
  | nil =>
      rintro state - - - (holds | ⟨later, member, -⟩)
      · exact holds
      · cases member
  | cons action rest ih =>
      rintro state here ⟨allowed, permitted⟩ ⟨answered, closed⟩ due
      apply ih _ (stays state action here allowed) permitted closed
      by_cases closing : closes action
      · exact Or.inl (established state action here allowed closing)
      by_cases opening : opens action
      · exact Or.inr (answered opening)
      rcases due with holds | ⟨later, member, closing'⟩
      · exact Or.inl (kept state action here allowed opening holds)
      · rcases List.mem_cons.mp member with rfl | member'
        · exact absurd closing' closing
        · exact Or.inr ⟨later, member', closing'⟩

/-- The events that a run shows to an observer of the abstract system. -/
def trace (system : Transition State Action) (event : State -> Action -> Option Event) :
    State -> List Action -> List Event
  | _, [] => []
  | state, action :: rest =>
      (event state action).toList ++ trace system event (system.next state action) rest

theorem trace_append (system : Transition State Action) (event : State -> Action -> Option Event)
    (earlier later : List Action) : forall state, system.trace event state (earlier ++ later) =
      system.trace event state earlier ++ system.trace event (system.run state earlier) later := by
  induction earlier with
  | nil => exact fun _ => rfl
  | cons action rest ih =>
      intro state
      change (event state action).toList ++ system.trace event _ (rest ++ later) = _
      rw [ih, ← List.append_assoc]
      rfl

/-- The condition has no influence on what a run shows. -/
theorem trace_restrict (system : Transition State Action) (condition : State -> Action -> Prop)
    (event : State -> Action -> Option Event) (actions : List Action) :
    forall state, (system.restrict condition).trace event state actions =
      system.trace event state actions := by
  induction actions with
  | nil => exact fun _ => rfl
  | cons action rest ih =>
      intro state
      exact congrArg _ (ih (system.next state action))

/-- An event with the state in which it occurs. -/
def situated (event : State -> Action -> Option Event) (state : State) (action : Action) :
    Option (State × Event) := (event state action).map (Prod.mk state)

theorem trace_situated (event : State -> Action -> Option Event) (actions : List Action) :
    forall state, (system.trace (situated event) state actions).map Prod.snd =
      system.trace event state actions := by
  induction actions with
  | nil => exact fun _ => rfl
  | cons action rest ih =>
      intro state
      rw [trace, trace, List.map_append, ih, situated]
      cases event state action <;> rfl

/-- A run that shows something has a first step that does. -/
theorem trace_first {event : State -> Action -> Option Event} {actions : List Action} :
    forall {state : State}, system.trace event state actions ≠ [] ->
    ∃ before action later label, actions = before ++ action :: later ∧
      system.trace event state before = [] ∧
      event (system.run state before) action = some label := by
  induction actions with
  | nil => exact fun shows => absurd rfl shows
  | cons action rest ih =>
      intro state shows
      cases shown : event state action with
      | some label => exact ⟨[], action, rest, label, rfl, rfl, shown⟩
      | none =>
          have same : system.trace event state (action :: rest) =
              system.trace event (system.next state action) rest := by
            rw [trace, shown]
            rfl
          rcases ih (same ▸ shows) with ⟨before, first, later, label, parts, silent, event'⟩
          refine ⟨action :: before, first, later, label, ?_, ?_, event'⟩
          · rw [parts]
            rfl
          · rw [trace, shown]
            exact silent

/-- Steps that each show an event and make the abstract step, or show nothing and
leave the abstract state as it was, make a path as long as `good` lasts. -/
theorem path_of_steps {step : Abstract -> Event -> Abstract -> Prop}
    {view : State -> Abstract} {event : State -> Action -> Option Event} {good : State -> Prop}
    (kept : forall state action, good state -> system.allowed state action ->
      good (system.next state action))
    (steps : forall state action, good state -> system.allowed state action ->
      match event state action with
      | some shown => step (view state) shown (view (system.next state action))
      | none => view (system.next state action) = view state)
    {state : State} (here : good state) {actions : List Action}
    (permitted : system.Permitted state actions) :
    Path step (view state) (system.trace event state actions)
      (view (system.run state actions)) := by
  induction actions generalizing state with
  | nil => exact Path.done (view state)
  | cons action rest ih =>
      have first := steps state action here permitted.1
      have later := ih (kept state action here permitted.1) permitted.2
      cases shown : event state action with
      | none =>
          rw [shown] at first
          simp only [trace, shown, Option.toList, List.nil_append]
          rw [← first]
          exact later
      | some label =>
          rw [shown] at first
          simp only [trace, shown, Option.toList, List.cons_append, List.nil_append]
          exact Path.cons first later

/-- In a reachable state every permitted step either shows its event and makes
the abstract step, or shows nothing and leaves the abstract state as it was. -/
def Simulation (system : Transition State Action) (step : Abstract -> Event -> Abstract -> Prop)
    (view : State -> Abstract) (event : State -> Action -> Option Event) : Prop :=
  forall state action, system.Reachable state -> system.allowed state action ->
    match event state action with
    | some shown => step (view state) shown (view (system.next state action))
    | none => view (system.next state action) = view state

/-- A simulation may say what its abstract steps owe to the state they are
taken in. -/
theorem simulation_situated {step : Abstract -> State × Event -> Abstract -> Prop}
    {view : State -> Abstract} {event : State -> Action -> Option Event}
    (steps : forall state action, system.Reachable state -> system.allowed state action ->
      match event state action with
      | some shown => step (view state) (state, shown) (view (system.next state action))
      | none => view (system.next state action) = view state) :
    Simulation system step view (situated event) := by
  intro state action reachable allowed
  have done := steps state action reachable allowed
  unfold situated
  cases shown : event state action with
  | none =>
      rw [shown] at done
      exact done
  | some label =>
      rw [shown] at done
      exact done

/-- A simulation turns every run into a run of the abstract system. -/
theorem Simulation.run {step : Abstract -> Event -> Abstract -> Prop}
    {view : State -> Abstract} {event : State -> Action -> Option Event}
    (simulation : Simulation system step view event) {state : State}
    (reachable : system.Reachable state) {actions : List Action}
    (permitted : system.Permitted state actions) :
    Path step (view state) (system.trace event state actions)
      (view (system.run state actions)) :=
  path_of_steps (fun _ _ => Reachable.step) simulation reachable permitted

end Transition

end Foundation
