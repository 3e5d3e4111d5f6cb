import Mathlib.Algebra.BigOperators.Group.Finset.Basic
import SmMalloc.Foundation.Transition

namespace Foundation

/-!
# Expensive events that are far apart

Some actions of a system count as operations, and some operations are
expensive.  A potential grows by at most one with every operation and not at
all otherwise.  If an expensive operation happens only at a full potential and
brings it down by all but one of `gap`, then any two expensive operations are
`gap` operations apart, and a window of operations has no more of them than
fit in.

The last section counts instead: actions have a price, and if the price of
every action and the potential behind it are covered by a credit and the
potential before it, then the credits of a run cover its cost.
-/

variable {gap full : Nat}

/-- Any two expensive operations are at least `gap` operations apart. -/
def Spaced (gap : Nat) (operations : List Bool) : Prop :=
  forall s t, s < t -> operations[s]? = some true -> operations[t]? = some true -> gap ≤ t - s

namespace Spaced

variable {operations : List Bool} {first : Bool}

theorem cons (spaced : Spaced gap operations)
    (far : first = true -> forall t, operations[t]? = some true -> gap ≤ t + 1) :
    Spaced gap (first :: operations) := by
  intro s t before expensive expensive'
  cases t with
  | zero => exact absurd before (Nat.not_lt_zero s)
  | succ t =>
      rw [List.getElem?_cons_succ] at expensive'
      cases s with
      | zero => exact far (Option.some.inj expensive) t expensive'
      | succ s =>
          have apart := spaced s t (Nat.lt_of_succ_lt_succ before) expensive expensive'
          omega

theorem tail (spaced : Spaced gap (first :: operations)) : Spaced gap operations := by
  intro s t before expensive expensive'
  have apart := spaced (s + 1) (t + 1) (Nat.succ_lt_succ before) expensive expensive'
  omega

/-- A part of the operations is spaced as well. -/
theorem window (spaced : Spaced gap operations) (j k : Nat) :
    Spaced gap ((operations.drop j).take k) := by
  have inside : forall s, ((operations.drop j).take k)[s]? = some true ->
      operations[j + s]? = some true := by
    intro s expensive
    rw [List.getElem?_take] at expensive
    split at expensive
    · rwa [List.getElem?_drop] at expensive
    · cases expensive
  intro s t before expensive expensive'
  have apart := spaced (j + s) (j + t) (by omega) (inside s expensive) (inside t expensive')
  omega

/-- No expensive operation is among the first `wait` ones. -/
theorem count_waiting (spaced : Spaced gap operations) : forall wait, wait < gap ->
    (forall t, t < wait -> operations[t]? ≠ some true) ->
    operations.count true * gap + wait + 1 ≤ operations.length + gap := by
  induction operations with
  | nil =>
      intro wait less _
      rw [List.count_nil, List.length_nil]
      omega
  | cons first operations ih =>
      intro wait less none
      cases first with
      | false =>
          have rest := ih spaced.tail (wait - 1) (by omega) (fun t before =>
            none (t + 1) (by omega))
          rw [List.count_cons_of_ne (by decide), List.length_cons]
          omega
      | true =>
          have now : wait = 0 := by
            by_contra later
            exact none 0 (by omega) rfl
          have rest := ih spaced.tail (gap - 1) (by omega) (fun t before expensive => by
            have apart := spaced 0 (t + 1) (Nat.succ_pos t) rfl expensive
            omega)
          rw [List.count_cons_self, List.length_cons, Nat.add_mul]
          omega

/-- As many expensive operations as fit in. -/
theorem count_le (spaced : Spaced gap operations) (positive : 0 < gap) :
    operations.count true ≤ 1 + (operations.length - 1) / gap := by
  have amount := spaced.count_waiting 0 positive (fun t before => absurd before (Nat.not_lt_zero t))
  cases length : operations.length with
  | zero =>
      rw [List.eq_nil_of_length_eq_zero length, List.count_nil]
      exact Nat.zero_le _
  | succ n =>
      have quotient : operations.count true ≤ (n + gap) / gap :=
        (Nat.le_div_iff_mul_le positive).mpr (by omega)
      rwa [Nat.add_div_right _ positive, Nat.add_comm] at quotient

theorem window_count_le (spaced : Spaced gap operations) (positive : 0 < gap) (j k : Nat) :
    ((operations.drop j).take k).count true ≤ 1 + (k - 1) / gap := by
  have amount := (spaced.window j k).count_le positive
  have length : ((operations.drop j).take k).length - 1 ≤ k - 1 :=
    Nat.sub_le_sub_right (List.length_take_le k _) 1
  exact Nat.le_trans amount (Nat.add_le_add_left (Nat.div_le_div_right length) 1)

end Spaced

namespace Transition

variable {State Action : Type*} {system : Transition State Action}

/-- A potential that pays for the expensive operations, in states that are `good`. -/
structure Potential (system : Transition State Action) (good : State -> Prop)
    (operation : State -> Action -> Option Bool) (potential : State -> Nat) (full gap : Nat) :
    Prop where
  kept : forall state action, good state -> system.allowed state action ->
    good (system.next state action)
  other : forall state action, good state -> system.allowed state action ->
    operation state action = none -> potential (system.next state action) ≤ potential state
  cheap : forall state action, good state -> system.allowed state action ->
    operation state action = some false ->
    potential (system.next state action) ≤ potential state + 1
  expensive : forall state action, good state -> system.allowed state action ->
    operation state action = some true ->
    full ≤ potential state ∧ potential (system.next state action) + gap ≤ full + 1

namespace Potential

variable {good : State -> Prop} {operation : State -> Action -> Option Bool}
variable {potential : State -> Nat} {actions : List Action}

theorem good_run (pays : Potential system good operation potential full gap) :
    forall {state : State}, good state -> system.Permitted state actions ->
    good (system.run state actions) := by
  induction actions with
  | nil => exact fun isGood _ => isGood
  | cons action rest ih =>
      intro state isGood permitted
      exact ih (pays.kept state action isGood permitted.1) permitted.2

/-- It takes operations to fill the potential up. -/
theorem full_le (pays : Potential system good operation potential full gap) :
    forall {state : State}, good state -> system.Permitted state actions ->
    forall t, (system.trace operation state actions)[t]? = some true ->
    full ≤ potential state + t := by
  induction actions with
  | nil => intro state _ _ t impossible; cases impossible
  | cons action rest ih =>
      intro state isGood permitted t expensive
      have later := ih (pays.kept state action isGood permitted.1) permitted.2
      cases kind : operation state action with
      | none =>
          have drop := pays.other state action isGood permitted.1 kind
          rw [trace, kind] at expensive
          have filled := later t expensive
          omega
      | some first =>
          rw [trace, kind] at expensive
          have rise : potential (system.next state action) ≤ potential state + 1 := by
            cases first with
            | false => exact pays.cheap state action isGood permitted.1 kind
            | true =>
                have paid := pays.expensive state action isGood permitted.1 kind
                omega
          cases t with
          | zero =>
              rw [Option.some.inj (expensive : some first = some true)] at kind
              exact (pays.expensive state action isGood permitted.1 kind).1
          | succ t =>
              have filled := later t expensive
              omega

/-- So the expensive operations of every run are far apart. -/
theorem spaced (pays : Potential system good operation potential full gap) :
    forall {state : State}, good state -> system.Permitted state actions ->
    Spaced gap (system.trace operation state actions) := by
  induction actions with
  | nil => intro state _ _ s t _ impossible; cases impossible
  | cons action rest ih =>
      intro state isGood permitted
      have isGood' := pays.kept state action isGood permitted.1
      have later := ih isGood' permitted.2
      cases kind : operation state action with
      | none =>
          rw [trace, kind]
          exact later
      | some first =>
          rw [trace, kind]
          refine Spaced.cons later ?_
          rintro rfl t expensive
          have paid := pays.expensive state action isGood permitted.1 kind
          have filled := pays.full_le isGood' permitted.2 t expensive
          omega

end Potential

/-! ## The cost of a run -/

/-- What the actions of a run cost together. -/
def cost (system : Transition State Action) (price : State -> Action -> Nat) :
    State -> List Action -> Nat
  | _, [] => 0
  | state, action :: rest => price state action + cost system price (system.next state action) rest

/-- The credits of a run and the potential at its start cover what it costs. -/
theorem cost_le {price credit : State -> Action -> Nat} {potential : State -> Nat}
    {actions : List Action} : forall {state : State}, system.Permitted state actions ->
    (forall before action, action ∈ actions -> system.allowed before action ->
      price before action + potential (system.next before action) ≤
        credit before action + potential before) ->
    system.cost price state actions + potential (system.run state actions) ≤
      system.cost credit state actions + potential state := by
  induction actions with
  | nil => exact fun _ _ => Nat.le_refl _
  | cons action rest ih =>
      intro state permitted covered
      have now := covered state action List.mem_cons_self permitted.1
      have later := ih permitted.2
        (fun before other member => covered before other (List.mem_cons_of_mem _ member))
      rw [cost, cost, run]
      omega

theorem cost_mono {price price' : State -> Action -> Nat} {actions : List Action}
    (cheaper : forall state action, action ∈ actions -> price state action ≤ price' state action) :
    forall state, system.cost price state actions ≤ system.cost price' state actions := by
  induction actions with
  | nil => exact fun _ => Nat.le_refl _
  | cons action rest ih =>
      intro state
      exact Nat.add_le_add (cheaper state action List.mem_cons_self)
        (ih (fun before other member => cheaper before other (List.mem_cons_of_mem _ member)) _)

theorem cost_add (price price' : State -> Action -> Nat) (actions : List Action) :
    forall state, system.cost (fun before action => price before action + price' before action)
      state actions = system.cost price state actions + system.cost price' state actions := by
  induction actions with
  | nil => exact fun _ => rfl
  | cons action rest ih =>
      intro state
      rw [cost, cost, cost, ih]
      omega

theorem cost_mul (factor : Nat) (price : State -> Action -> Nat) (actions : List Action) :
    forall state, system.cost (fun before action => factor * price before action) state actions =
      factor * system.cost price state actions := by
  induction actions with
  | nil => exact fun _ => (Nat.mul_zero factor).symm
  | cons action rest ih =>
      intro state
      rw [cost, cost, ih, Nat.mul_add]

/-- The cost of several things is counted for each of them. -/
theorem cost_sum {Index : Type*} (indices : Finset Index) (price : Index -> State -> Action -> Nat)
    (actions : List Action) : forall state,
    system.cost (fun before action => ∑ index ∈ indices, price index before action) state actions =
      ∑ index ∈ indices, system.cost (price index) state actions := by
  induction actions with
  | nil => exact fun _ => Finset.sum_const_zero.symm
  | cons action rest ih =>
      intro state
      rw [cost, ih, ← Finset.sum_add_distrib]
      rfl

end Transition

end Foundation
