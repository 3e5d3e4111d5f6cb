import SmMalloc.Foundation.Transition

namespace Foundation

/-!
# Components of a system

A large system often contains smaller ones that are understood already.  A step
of the whole is then, for each component, a step of its own or no step at all.
`Components` says so for a family of components at once, through a relation
between the state of the whole and the states of all components, because what
keeps one of them in order may depend on the others.

`Components.run` turns a run of the whole into a run of each component, so that
whatever is known of the runs of the components holds inside the whole.
-/

namespace Transition

variable {State Action Part Move Index : Type*} {system : Transition State Action}

/-- Every reachable state ends a permitted run. -/
theorem Reachable.has_run {state : State} (reachable : system.Reachable state) :
    ∃ first actions, system.start first ∧ system.Permitted first actions ∧
      system.run first actions = state := by
  induction reachable with
  | start first => exact ⟨_, [], first, trivial, rfl⟩
  | @step before action _ permitted ih =>
      rcases ih with ⟨first, actions, start, earlier, rfl⟩
      refine ⟨first, actions ++ [action], start, ?_, ?_⟩
      · exact (permitted_append _ _ _ _).mpr ⟨earlier, permitted, trivial⟩
      · rw [run_append]
        rfl

/-- A component after its own move, if it makes one. -/
def advance (part : Transition Part Move) (inner : Part) : Option Move -> Part
  | some move => part.next inner move
  | none => inner

/-- The move is permitted, if there is one. -/
def Admits (part : Transition Part Move) (inner : Part) (move : Option Move) : Prop :=
  forall own, move = some own -> part.allowed inner own

theorem Reachable.advance {part : Transition Part Move} {inner : Part}
    (reachable : part.Reachable inner) {move : Option Move} (admits : part.Admits inner move) :
    part.Reachable (part.advance inner move) := by
  cases move with
  | none => exact reachable
  | some own => exact Reachable.step reachable (admits own rfl)

/-- Each permitted step of the whole is a permitted step of every component
that takes part in it, and whole and components still fit together. -/
def Components (system : Transition State Action) (part : Index -> Transition Part Move)
    (fits : State -> (Index -> Part) -> Prop) (act : Index -> State -> Action -> Option Move) :
    Prop :=
  forall state inner action, (forall i, (part i).Reachable (inner i)) -> fits state inner ->
    system.allowed state action ->
    (forall i, (part i).Admits (inner i) (act i state action)) ∧
      fits (system.next state action) (fun i => (part i).advance (inner i) (act i state action))

namespace Components

variable {part : Index -> Transition Part Move} {fits : State -> (Index -> Part) -> Prop}
variable {act : Index -> State -> Action -> Option Move}

/-- A run of the whole is a run of every component. -/
theorem run (components : Components system part fits act) {actions : List Action} :
    forall {state : State} {inner : Index -> Part}, (forall i, (part i).Reachable (inner i)) ->
    fits state inner -> system.Permitted state actions ->
    (forall i, (part i).Permitted (inner i) (system.trace (act i) state actions)) ∧
      fits (system.run state actions)
        (fun i => (part i).run (inner i) (system.trace (act i) state actions)) := by
  induction actions with
  | nil =>
      intro state inner _ fitting _
      exact ⟨fun _ => trivial, fitting⟩
  | cons action rest ih =>
      intro state inner reachable fitting permitted
      rcases components state inner action reachable fitting permitted.1 with ⟨admits, onward⟩
      rcases ih (fun i => (reachable i).advance (admits i)) onward permitted.2 with ⟨each, last⟩
      have split : forall i, (part i).run (inner i) (system.trace (act i) state (action :: rest)) =
          (part i).run ((part i).advance (inner i) (act i state action))
            (system.trace (act i) (system.next state action) rest) := by
        intro i
        rw [trace]
        cases act i state action with
        | none => rfl
        | some move => rfl
      refine ⟨?_, ?_⟩
      · intro i
        have here := admits i
        have later := each i
        rw [trace]
        cases moved : act i state action with
        | none =>
            rw [moved] at later
            exact later
        | some move =>
            rw [moved] at here later
            exact ⟨here move rfl, later⟩
      · have same := funext split
        rw [same]
        exact last

/-- What fits at the start fits in every later state, with components that
have been reached by steps of their own. -/
theorem after (components : Components system part fits act) {state : State}
    {inner : Index -> Part} (reachable : forall i, (part i).Reachable (inner i))
    (fitting : fits state inner) {actions : List Action} (permitted : system.Permitted state actions) :
    ∃ inner', (forall i, (part i).Reachable (inner' i)) ∧
      fits (system.run state actions) inner' := by
  rcases components.run reachable fitting permitted with ⟨each, last⟩
  exact ⟨_, fun i => (reachable i).after (each i), last⟩

end Components

end Transition

end Foundation
