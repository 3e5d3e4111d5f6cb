import Mathlib.Algebra.BigOperators.Ring.Finset
import Mathlib.Algebra.Order.BigOperators.Group.Finset
import Mathlib.Tactic.Ring
import SmMalloc.Atomic.Stack
import SmMalloc.Foundation.Amortised

namespace SmMalloc

open Foundation

/-!
# Somebody always gets on

No thread waits for another in `Alloc` and `FreeInterval`; what can happen to a
thread is that its compare-exchange fails and it has to try again.  But it
fails only if the head has changed since the thread has loaded it, and then the
compare-exchange of another thread has succeeded, which ends the call of that
thread.

So the failures of a thread are paid by the successes of the others, at most
one by each, and among enough steps that a group of threads takes in the list
there is one that completes a call.  All of this holds from any state on, with
thread caches or without, and whatever the clients write.
-/

variable {s : AtomicBucket} {move : Move} {t u : Nat} {elementSize size : Nat}

namespace Point

/-- Inside `Alloc` or `FreeInterval`. -/
def inList : Point -> Bool
  | .idle => false
  | .linking _ _ _ _ => false
  | _ => true

/-- The steps in the list that are left to do if no compare-exchange fails. -/
def left : Point -> Nat
  | .idle => 0
  | .allocLoaded _ => 2
  | .allocRead _ _ => 1
  | .linking _ _ _ _ => 4
  | .freeInterval _ => 4
  | .freeTagged _ _ => 3
  | .freeLoaded _ _ _ => 2
  | .freeLinked _ _ _ => 1

/-- The head as the thread has loaded it. -/
def loaded : Point -> Option TaggedIndex
  | .allocLoaded headValue => some headValue
  | .allocRead headValue _ => some headValue
  | .freeLoaded _ _ headValue => some headValue
  | .freeLinked _ _ headValue => some headValue
  | _ => none

/-- The head that the thread is about to compare with. -/
def compared : Point -> Option TaggedIndex
  | .allocRead headValue _ => some headValue
  | .freeLinked _ _ headValue => some headValue
  | _ => none

theorem left_le (point : Point) : point.left ≤ 4 := by
  cases point <;> exact Nat.le_of_ble_eq_true rfl

end Point

namespace AtomicBucket

/-- Thread `t` takes a step in the list; the first one is the load of `Alloc`. -/
def stepsInList (t : Nat) (s : AtomicBucket) : Move -> Nat
  | .alloc u => if u = t then 1 else 0
  | .proceed u => if u = t ∧ (s.point u).inList then 1 else 0
  | _ => 0

/-- Thread `t` makes a compare-exchange that succeeds. -/
def exchanges (t : Nat) (s : AtomicBucket) : Move -> Nat
  | .proceed u => if u = t ∧ (s.point u).compared = some s.head then 1 else 0
  | _ => 0

/-- Thread `t` makes a compare-exchange that fails. -/
def retries (t : Nat) (s : AtomicBucket) : Move -> Nat
  | .proceed u =>
      if u = t ∧ (s.point u).compared.isSome ∧ (s.point u).compared ≠ some s.head then 1 else 0
  | _ => 0

/-- Thread `t` enters a call. -/
def begins (t : Nat) (s : AtomicBucket) (move : Move) : Nat :=
  if s.point t = .idle ∧ (s.step move).point t ≠ .idle then 1 else 0

/-- Thread `t` completes a call. -/
def completes (t : Nat) (s : AtomicBucket) (move : Move) : Nat :=
  if s.point t ≠ .idle ∧ (s.step move).point t = .idle then 1 else 0

/-- The head is no longer what thread `t` has loaded. -/
def stale (t : Nat) (s : AtomicBucket) : Nat :=
  if (s.point t).loaded.isSome ∧ (s.point t).loaded ≠ some s.head then 1 else 0

/-- Thread `t` is free to begin a call. -/
def spare (t : Nat) (s : AtomicBucket) : Nat := if s.point t = .idle then 1 else 0

/-- The steps that thread `t` has left to do. -/
def owed (t : Nat) (s : AtomicBucket) : Nat := (s.point t).left

theorem stale_le (t : Nat) (s : AtomicBucket) : s.stale t ≤ 1 := by
  unfold stale
  split <;> decide

/-- A thread that is free to begin a call has nothing left to do. -/
theorem owed_le (t : Nat) (s : AtomicBucket) : s.owed t + 4 * s.spare t ≤ 4 := by
  unfold owed spare
  split
  next idle => rw [idle]; exact Nat.le_refl _
  next => exact (s.point t).left_le

/-! ## One step -/

/-- Only a compare-exchange that succeeds changes the head. -/
theorem Proceeds.head {s' : AtomicBucket} {central central' : List Nat}
    (moved : Proceeds s central t s' central') (failed : s.exchanges t (.proceed t) = 0) :
    s'.head = s.head := by
  cases moved with
  | pop headValue nextValue here same =>
      simp [exchanges, here, Point.compared, same] at failed
  | push chain nodeValue headValue here same =>
      simp [exchanges, here, Point.compared, same] at failed
  | _ => rfl

theorem head_kept (failed : forall u, move.thread = some u -> s.exchanges u move = 0) :
    (s.step move).head = s.head := by
  cases move with
  | allocFromCache u =>
      simp only [step]
      split <;> rfl
  | returnL1CacheToMaster u count =>
      simp only [step]
      split <;> rfl
  | proceed u => exact (s.proceeds [] u).head (failed u rfl)
  | _ => rfl

/-- A step that fails has been outrun. -/
theorem Proceeds.retries_paid {s' : AtomicBucket} {central central' : List Nat}
    (moved : Proceeds s central t s' central') :
    s.retries t (.proceed t) + s'.stale t ≤ s.stale t := by
  cases moved with
  | idle here => simp [retries, here, Point.compared]
  | null headValue here empty => simp [retries, stale, here, Point.compared, Point.loaded, goto]
  | read headValue here running =>
      simp [retries, stale, here, Point.compared, Point.loaded, goto]
  | pop headValue nextValue here same =>
      simp [retries, stale, here, Point.compared, Point.loaded, goto, same]
  | reload headValue nextValue here other =>
      have outrun : headValue ≠ s.head := fun same => other same.symm
      simp [retries, stale, here, Point.compared, Point.loaded, goto, outrun]
  | linked chain localTag previous here =>
      simp [retries, stale, here, Point.compared, Point.loaded, goto]
  | link chain localTag previous o todo here =>
      simp [retries, stale, here, Point.compared, Point.loaded, goto]
  | draw chain here => simp [retries, stale, here, Point.compared, Point.loaded, goto]
  | load chain nodeValue here =>
      simp [retries, stale, here, Point.compared, Point.loaded, goto]
  | store chain nodeValue headValue here =>
      simp [retries, stale, here, Point.compared, Point.loaded, goto]
  | push chain nodeValue headValue here same =>
      simp [retries, stale, here, Point.compared, Point.loaded, goto, same]
  | retry chain nodeValue headValue here other =>
      have outrun : headValue ≠ s.head := fun same => other same.symm
      simp [retries, stale, here, Point.compared, Point.loaded, goto, outrun]

/-- A thread that is not about to compare does not fall behind by its own step. -/
theorem own_stale (mine : move.thread = some t) : s.retries t move + (s.step move).stale t ≤
    s.stale t := by
  cases move with
  | alloc u =>
      injection mine with same
      subst same
      simp [retries, stale, step, goto, Point.loaded]
  | free u o =>
      injection mine with same
      subst same
      simp [retries, stale, step, goto, Point.loaded]
  | releaseToCache u o => exact Nat.le_of_eq (Nat.zero_add _)
  | allocFromCache u =>
      simp only [step]
      split <;> exact Nat.le_of_eq (Nat.zero_add _)
  | returnL1CacheToMaster u count =>
      injection mine with same
      subst same
      simp only [step]
      split
      · exact Nat.le_of_eq (Nat.zero_add _)
      · simp [retries, stale, goto, Point.loaded]
  | proceed u =>
      injection mine with same
      subst same
      exact (s.proceeds [] u).retries_paid
  | write o value => cases mine

theorem retries_of_ne (other : move.thread ≠ some t) : s.retries t move = 0 := by
  cases move with
  | proceed u => exact if_neg (fun own => other (congrArg some own.1))
  | _ => rfl

/-- What makes a thread fail is that another has succeeded. -/
theorem retries_covered {threads : Finset Nat}
    (inside : forall u, move.thread = some u -> u ∈ threads) (t : Nat) :
    s.retries t move + (s.step move).stale t ≤
      ∑ u ∈ threads.erase t, s.exchanges u move + s.stale t := by
  by_cases mine : move.thread = some t
  · exact Nat.le_trans (own_stale mine) (Nat.le_add_left _ _)
  rw [retries_of_ne mine, Nat.zero_add]
  by_cases succeeds : ∃ u, move.thread = some u ∧ s.exchanges u move ≠ 0
  · rcases succeeds with ⟨u, isThread, success⟩
    have other : u ∈ threads.erase t := by
      refine Finset.mem_erase.mpr ⟨?_, inside u isThread⟩
      rintro rfl
      exact mine isThread
    have paid := Finset.single_le_sum (fun v _ => Nat.zero_le (s.exchanges v move)) other
    have outrun := (s.step move).stale_le t
    omega
  · have head : (s.step move).head = s.head :=
      head_kept (fun u isThread => by_contra (fun success => succeeds ⟨u, isThread, success⟩))
    have kept : (s.step move).stale t = s.stale t := by
      rw [stale, stale, head, step_point_of_ne mine]
    omega

theorem Proceeds.steps_covered {s' : AtomicBucket} {central central' : List Nat}
    (moved : Proceeds s central t s' central') :
    s.stepsInList t (.proceed t) + (s'.point t).left ≤
      2 * s.retries t (.proceed t) + (s.point t).left := by
  cases moved with
  | pop headValue nextValue here same =>
      simp [stepsInList, here, Point.inList, Point.left, goto_point]
  | reload headValue nextValue here other =>
      have outrun : headValue ≠ s.head := fun same => other same.symm
      simp [stepsInList, retries, here, Point.inList, Point.left, Point.compared, goto_point, outrun]
  | push chain nodeValue headValue here same =>
      simp [stepsInList, here, Point.inList, Point.left, goto_point]
  | retry chain nodeValue headValue here other =>
      have outrun : headValue ≠ s.head := fun same => other same.symm
      simp [stepsInList, retries, here, Point.inList, Point.left, Point.compared, goto_point, outrun]
  | idle here => simp [stepsInList, here, Point.inList]
  | null headValue here empty => simp [stepsInList, here, Point.inList, Point.left, goto_point]
  | read headValue here running => simp [stepsInList, here, Point.inList, Point.left, goto_point]
  | linked chain localTag previous here =>
      simp [stepsInList, here, Point.inList, Point.left, goto_point]
  | link chain localTag previous o todo here =>
      simp [stepsInList, here, Point.inList, Point.left, goto_point]
  | draw chain here => simp [stepsInList, here, Point.inList, Point.left, goto_point]
  | load chain nodeValue here => simp [stepsInList, here, Point.inList, Point.left, goto_point]
  | store chain nodeValue headValue here =>
      simp [stepsInList, here, Point.inList, Point.left, goto_point]

/-- A call takes four steps in the list at most, and two more for every failure. -/
theorem steps_covered (allowed : s.Allowed move) (t : Nat) :
    s.stepsInList t move + (s.step move).owed t ≤
      4 * s.begins t move + 2 * s.retries t move + s.owed t := by
  unfold owed
  by_cases mine : move.thread = some t
  · cases move with
    | alloc u =>
        injection mine with same
        subst same
        have idle : s.point u = .idle := allowed
        simp [stepsInList, begins, step, goto_point, idle, Point.left]
        omega
    | free u o =>
        injection mine with same
        subst same
        simp [stepsInList, begins, step, goto_point, allowed.1, Point.left]
    | releaseToCache u o =>
        have kept : (s.step (.releaseToCache u o)).point = s.point := rfl
        rw [kept]
        exact Nat.add_le_add_right (Nat.zero_le _) _
    | allocFromCache u =>
        have kept : (s.step (.allocFromCache u)).point = s.point := by
          simp only [step]
          split <;> rfl
        rw [kept]
        exact Nat.add_le_add_right (Nat.zero_le _) _
    | returnL1CacheToMaster u count =>
        injection mine with same
        subst same
        have idle : s.point u = .idle := allowed
        have entered : (s.step (.returnL1CacheToMaster u count)).point u = s.point u ∨
            ∃ chain localTag previous todo, (s.step (.returnL1CacheToMaster u count)).point u =
              .linking chain localTag previous todo := by
          simp only [step]
          split
          · exact Or.inl rfl
          · exact Or.inr ⟨_, _, _, _, goto_point _ _ _⟩
        rcases entered with same | ⟨chain, localTag, previous, todo, linking⟩
        · rw [same]
          exact Nat.add_le_add_right (Nat.zero_le _) _
        · simp [stepsInList, begins, idle, linking, Point.left]
    | proceed u =>
        injection mine with same
        subst same
        have covered := (s.proceeds [] u).steps_covered
        change s.stepsInList u (.proceed u) + ((s.proceed u).point u).left ≤ _
        omega
    | write o value => cases mine
  · have none : s.stepsInList t move = 0 := by
      cases move with
      | alloc u => exact if_neg (fun own => mine (congrArg some own))
      | proceed u => exact if_neg (fun own => mine (congrArg some own.1))
      | _ => rfl
    rw [none, step_point_of_ne mine]
    omega

/-- A thread is in a call from the step that begins it to the step that completes it. -/
theorem calls_balance (t : Nat) : s.begins t move + (s.step move).spare t =
    s.completes t move + s.spare t := by
  unfold begins completes spare
  by_cases before : s.point t = .idle <;> by_cases behind : (s.step move).point t = .idle <;>
    simp [before, behind]

/-- A compare-exchange that succeeds completes a call. -/
theorem exchanges_le (t : Nat) : s.exchanges t move ≤ s.completes t move := by
  cases move with
  | proceed u =>
      by_cases success : u = t ∧ (s.point u).compared = some s.head
      · rcases success with ⟨rfl, current⟩
        rw [exchanges, if_pos ⟨rfl, current⟩, completes, if_pos]
        have moved := s.proceeds [] u
        change s.point u ≠ .idle ∧ (s.proceed u).point u = .idle
        generalize s.proceed u = s', s.after [] (.proceed u) = central' at moved
        cases moved with
        | pop headValue nextValue here same => simp [here, goto_point]
        | push chain nodeValue headValue here same => simp [here, goto_point]
        | reload headValue nextValue here other =>
            rw [here] at current
            exact absurd (Option.some.inj current).symm other
        | retry chain nodeValue headValue here other =>
            rw [here] at current
            exact absurd (Option.some.inj current).symm other
        | idle here => rw [here] at current; cases current
        | null headValue here empty => rw [here] at current; cases current
        | read headValue here running => rw [here] at current; cases current
        | linked chain localTag previous here => rw [here] at current; cases current
        | link chain localTag previous o todo here => rw [here] at current; cases current
        | draw chain here => rw [here] at current; cases current
        | load chain nodeValue here => rw [here] at current; cases current
        | store chain nodeValue headValue here => rw [here] at current; cases current
      · rw [exchanges, if_neg success]
        exact Nat.zero_le _
  | _ => exact Nat.zero_le _

/-! ## Runs -/

/-- The steps that these threads take in the list. -/
def stepsOf (elementSize size : Nat) (threads : Finset Nat) (s : AtomicBucket)
    (moves : List Move) : Nat :=
  ∑ t ∈ threads, (system elementSize size).cost (stepsInList t) s moves

/-- The calls that these threads complete. -/
def completedOf (elementSize size : Nat) (threads : Finset Nat) (s : AtomicBucket)
    (moves : List Move) : Nat :=
  ∑ t ∈ threads, (system elementSize size).cost (completes t) s moves

section Runs

variable {threads : Finset Nat} {moves : List Move}
variable (permitted : (system elementSize size).Permitted s moves)
include permitted

/-- A thread fails as often as others succeed, and once more if it starts behind. -/
theorem retries_le
    (inside : forall move, move ∈ moves -> forall t, move.thread = some t -> t ∈ threads)
    (t : Nat) : (system elementSize size).cost (retries t) s moves ≤
      ∑ u ∈ threads.erase t, (system elementSize size).cost (exchanges u) s moves + 1 := by
  have paid : (system elementSize size).cost (retries t) s moves +
      stale t ((system elementSize size).run s moves) ≤
      (system elementSize size).cost
        (fun before move => ∑ u ∈ threads.erase t, exchanges u before move) s moves + stale t s :=
    Transition.cost_le permitted (fun _ move member _ => retries_covered (inside move member) t)
  rw [Transition.cost_sum] at paid
  have behind := s.stale_le t
  omega

/-- The steps of a thread, by the calls that it completes and its failures. -/
theorem steps_le (t : Nat) : (system elementSize size).cost (stepsInList t) s moves ≤
    4 * (system elementSize size).cost (completes t) s moves +
      2 * (system elementSize size).cost (retries t) s moves + 4 := by
  have steps : (system elementSize size).cost (stepsInList t) s moves +
      owed t ((system elementSize size).run s moves) ≤ (system elementSize size).cost
        (fun before move => 4 * begins t before move + 2 * retries t before move) s moves +
      owed t s :=
    Transition.cost_le permitted (fun _ _ _ allowed => steps_covered allowed t)
  have calls : (system elementSize size).cost (begins t) s moves +
      spare t ((system elementSize size).run s moves) ≤
      (system elementSize size).cost (completes t) s moves + spare t s :=
    Transition.cost_le permitted (fun _ _ _ _ => Nat.le_of_eq (calls_balance t))
  rw [Transition.cost_add, Transition.cost_mul, Transition.cost_mul] at steps
  have together := owed_le t s
  omega

/-- Among the steps that `k` threads take in the list there is, for every
`2 * k + 2` of them, one that completes a call, after `6 * k` at the beginning. -/
theorem lock_free
    (inside : forall move, move ∈ moves -> forall t, move.thread = some t -> t ∈ threads) :
    stepsOf elementSize size threads s moves ≤
      (2 * threads.card + 2) * completedOf elementSize size threads s moves +
        6 * threads.card := by
  -- every success is a failure of at most all threads but one
  have others : ∑ t ∈ threads, ∑ u ∈ threads.erase t,
        (system elementSize size).cost (exchanges u) s moves +
      ∑ t ∈ threads, (system elementSize size).cost (exchanges t) s moves =
      threads.card * ∑ t ∈ threads, (system elementSize size).cost (exchanges t) s moves := by
    rw [← Finset.sum_add_distrib]
    exact Finset.sum_const_nat (fun t member => Finset.sum_erase_add threads _ member)
  have successes : ∑ t ∈ threads, (system elementSize size).cost (exchanges t) s moves ≤
      completedOf elementSize size threads s moves :=
    Finset.sum_le_sum (fun t _ => Transition.cost_mono (fun _ _ _ => exchanges_le t) s)
  have each : forall t, t ∈ threads -> (system elementSize size).cost (stepsInList t) s moves ≤
      4 * (system elementSize size).cost (completes t) s moves +
        2 * ∑ u ∈ threads.erase t, (system elementSize size).cost (exchanges u) s moves + 6 := by
    intro t _
    have steps := steps_le permitted t
    have failures := retries_le permitted inside t
    omega
  have total := Finset.sum_le_sum each
  rw [Finset.sum_add_distrib, Finset.sum_add_distrib, ← Finset.mul_sum, ← Finset.mul_sum,
    Finset.sum_const_nat (fun _ _ => rfl)] at total
  change stepsOf elementSize size threads s moves ≤
    4 * completedOf elementSize size threads s moves + _ + _ at total
  cases count : threads.card with
  | zero =>
      rw [Finset.card_eq_zero.mp count]
      exact Nat.zero_le _
  | succ rivals =>
      rw [count, Nat.succ_mul] at others
      rw [count] at total
      have failures := Nat.mul_le_mul_left rivals successes
      have split : (2 * (rivals + 1) + 2) * completedOf elementSize size threads s moves =
          4 * completedOf elementSize size threads s moves +
            2 * (rivals * completedOf elementSize size threads s moves) := by
        ring
      omega

end Runs

theorem lock_free_twoBlocks :
    stepsOf 16 32 {0, 1} CountedBucket.twoBlocks.bucket CountedBucket.stalledRun ≤
      (2 * 2 + 2) * completedOf 16 32 {0, 1} CountedBucket.twoBlocks.bucket
        CountedBucket.stalledRun + 6 * 2 := by
  have permitted : (system 16 32).Permitted CountedBucket.twoBlocks.bucket
      CountedBucket.stalledRun := by decide +kernel
  have inside : forall move, move ∈ CountedBucket.stalledRun -> forall t,
      move.thread = some t -> t ∈ ({0, 1} : Finset Nat) := by
    have both : forall move, move ∈ CountedBucket.stalledRun ->
        move.thread = none ∨ move.thread = some 0 ∨ move.thread = some 1 := by decide
    intro move member t isThread
    rcases both move member with none | zero | one
    · rw [none] at isThread
      cases isThread
    · rw [Option.some.inj (isThread.symm.trans zero)]
      decide
    · rw [Option.some.inj (isThread.symm.trans one)]
      decide
  exact lock_free permitted inside

end AtomicBucket

end SmMalloc
