import Mathlib.Data.List.Induction
import SmMalloc.Atomic.Tags

namespace SmMalloc

open Foundation

/-!
# The list without thread caches is an atomic stack

Threads that have no cache call `Alloc` and `FreeInterval(p, p)` only.  Seen
from outside, the bucket is then a stack of distinct blocks: a successful
compare-exchange of `Alloc` pops, one of `FreeInterval` pushes, and a load that
finds the head `Invalid` finds the stack empty.  No other step shows.

The stack is what one reads by following the links from the head.  A run may
have as many calls of `FreeInterval` as there are tags that `Create` has not
used.
-/

variable {elementSize size t o : Nat} {s s' : AtomicBucket} {central central' : List Nat}

/-- What an observer sees of the stack. -/
inductive StackEvent
  | pop (t o : Nat)
  | push (t o : Nat)
  | empty (t : Nat)
  deriving DecidableEq

/-- A stack of distinct blocks whose operations are atomic. -/
inductive StackStep : List Nat -> StackEvent -> List Nat -> Prop
  | pop (t o : Nat) (stack : List Nat) : StackStep (o :: stack) (.pop t o) stack
  | push (t o : Nat) (stack : List Nat) : o ∉ stack -> StackStep stack (.push t o) (o :: stack)
  | empty (t : Nat) : StackStep [] (.empty t) []

namespace AtomicBucket

/-- The blocks met on the way from the head. -/
def stack (elementSize size : Nat) (s : AtomicBucket) : List Nat :=
  TaggedIndex.kind.follow s.link (size / elementSize) s.head

/-- What a step shows of the stack. -/
def event (s : AtomicBucket) : Move -> Option StackEvent
  | .alloc t => if s.head = TaggedIndex.invalid then some (.empty t) else none
  | .proceed t =>
      match s.point t with
      | .allocRead headValue _ =>
          if s.head = headValue then some (.pop t headValue.offset.toNat)
          else if s.head = TaggedIndex.invalid then some (.empty t)
          else none
      | .freeLinked chain _ headValue =>
          if s.head = headValue then some (.push t chain.pHead) else none
      | _ => none
  | _ => none

/-! ## One step -/

theorem Owned.length_le
    (owned : Owned (IsBlock elementSize size) s central) : central.length ≤ size / elementSize := by
  have nodup : central.Nodup := owned.custody.nodup .central
  have subset : central ⊆ createdList elementSize size := by
    intro o member
    have listed : o ∈ s.keeps central .central := member
    exact mem_createdList.mpr (owned.custody.supplied _ listed)
  have length := (List.subperm_of_subset nodup subset).length_le
  rwa [createdList, List.length_map, List.length_range] at length

theorem Owned.stack_eq
    (owned : Owned (IsBlock elementSize size) s central) : s.stack elementSize size = central :=
  owned.linked.follow owned.length_le

/-- A step does to the list what its event says. -/
theorem Owned.stackStep {isBlock : Nat -> Prop} (owned : Owned isBlock s central)
    (tagged : Tagged s central) {move : Move}
    (nodup : (s.after central move).Nodup) :
    match s.event move with
    | some shown => StackStep central shown (s.after central move)
    | none => s.after central move = central := by
  have isEmpty : s.head = TaggedIndex.invalid -> central = [] := owned.linked.eq_nil_iff.mpr
  cases move with
  | alloc t =>
      by_cases empty : s.head = TaggedIndex.invalid
      · simp only [event, if_pos empty, after]
        rw [isEmpty empty]
        exact StackStep.empty t
      · simp only [event, if_neg empty, after]
  | free t o => rfl
  | releaseToCache t o => rfl
  | allocFromCache t => rfl
  | returnL1CacheToMaster t count => rfl
  | write o value => rfl
  | proceed t =>
      cases here : s.point t with
      | allocRead headValue nextValue =>
          by_cases same : s.head = headValue
          · simp only [event, here, if_pos same, after]
            have list := (owned.pop here same).1
            rw [list]
            exact StackStep.pop t _ _
          · by_cases empty : s.head = TaggedIndex.invalid
            · simp only [event, here, if_neg same, if_pos empty, after]
              rw [isEmpty empty]
              exact StackStep.empty t
            · simp only [event, here, if_neg same, if_neg empty, after]
      | freeLinked chain nodeValue headValue =>
          by_cases same : s.head = headValue
          · have single := tagged.single t
            rw [here] at single
            have rest : chain.rest = [] := single
            simp only [after, here, if_pos same, Chain.blocks, rest] at nodup
            simp only [event, here, if_pos same, after, Chain.blocks, rest]
            exact StackStep.push t _ _ (List.nodup_cons.mp nodup).1
          · simp only [event, here, if_neg same, after]
      | idle => simp only [event, here, after]
      | allocLoaded headValue => simp only [event, here, after]
      | linking chain localTag previous todo => simp only [event, here, after]
      | freeInterval chain => simp only [event, here, after]
      | freeTagged chain nodeValue => simp only [event, here, after]
      | freeLoaded chain nodeValue headValue => simp only [event, here, after]

/-- A pop is the compare-exchange of a call of `Alloc` that has read a link. -/
theorem pop_spec {move : Move} (shown : s.event move = some (.pop t o)) :
    ∃ headValue nextValue, move = .proceed t ∧ s.point t = .allocRead headValue nextValue ∧
      s.head = headValue ∧ o = headValue.offset.toNat := by
  cases move with
  | alloc u =>
      simp only [event] at shown
      split at shown <;> cases shown
  | proceed u =>
      cases here : s.point u with
      | allocRead headValue nextValue =>
          by_cases same : s.head = headValue
          · simp only [event, here, if_pos same] at shown
            injection shown with popped
            injection popped with isThread isBlock
            subst isThread
            exact ⟨headValue, nextValue, rfl, here, same, isBlock.symm⟩
          · simp only [event, here, if_neg same] at shown
            split at shown <;> cases shown
      | freeLinked chain nodeValue headValue =>
          simp only [event, here] at shown
          split at shown <;> cases shown
      | _ =>
          simp only [event, here] at shown
          cases shown
  | _ => cases shown

/-- The block that is popped is the block that is returned. -/
theorem held_of_pop (shown : s.event (.proceed t) = some (.pop t o)) :
    (s.step (.proceed t)).held = o :: s.held := by
  rcases pop_spec shown with ⟨headValue, nextValue, -, here, same, rfl⟩
  simp only [step, proceed, here, if_pos same]
  rfl

/-- A call of `Alloc` in progress finds the list empty by a load that shows it. -/
theorem Proceeds.event_of_null (moved : Proceeds s central t s' central')
    (null : s'.point t = .allocLoaded TaggedIndex.invalid) :
    s.event (.proceed t) = some (.empty t) := by
  cases moved with
  | reload headValue nextValue here other =>
      rw [goto_point] at null
      injection null with empty
      simp only [event, here, if_neg other, if_pos empty]
  | idle here =>
      rw [here] at null
      cases null
  | null => rw [goto_point] at null; cases null
  | read => rw [goto_point] at null; cases null
  | pop => rw [goto_point] at null; cases null
  | linked => rw [goto_point] at null; cases null
  | link => rw [goto_point] at null; cases null
  | draw => rw [goto_point] at null; cases null
  | load => rw [goto_point] at null; cases null
  | store => rw [goto_point] at null; cases null
  | push => rw [goto_point] at null; cases null
  | retry => rw [goto_point] at null; cases null

/-- So does a call that begins. -/
theorem event_of_null {move : Move} (uncached : move.Uncached) (own : move.thread = some t)
    (null : (s.step move).point t = .allocLoaded TaggedIndex.invalid) :
    s.event move = some (.empty t) := by
  cases move with
  | alloc u =>
      injection own with same
      subst same
      rw [step, goto_point] at null
      injection null with empty
      simp only [event, if_pos empty]
  | free u o =>
      injection own with same
      subst same
      rw [step, goto_point] at null
      cases null
  | releaseToCache u o => exact absurd uncached id
  | allocFromCache u => exact absurd uncached id
  | returnL1CacheToMaster u count => exact absurd uncached id
  | write o value => cases own
  | proceed u =>
      injection own with same
      subst same
      exact (s.proceeds [] u).event_of_null null

/-- A load shows an empty stack only if there is nothing on it. -/
theorem stack_of_empty {move : Move} (shown : s.event move = some (.empty t)) :
    s.stack elementSize size = [] := by
  have stopped : s.head = TaggedIndex.invalid := by
    cases move with
    | alloc u =>
        by_contra running
        simp only [event, if_neg running] at shown
        cases shown
    | proceed u =>
        by_contra running
        simp only [event, if_neg running] at shown
        split at shown
        · split at shown <;> cases shown
        · split at shown <;> cases shown
        · cases shown
    | free u o => cases shown
    | releaseToCache u o => cases shown
    | allocFromCache u => cases shown
    | returnL1CacheToMaster u count => cases shown
    | write o value => cases shown
  rw [stack, stopped]
  cases size / elementSize with
  | zero => rfl
  | succ fuel => exact if_pos rfl

end AtomicBucket

/-! ## Runs -/

/-- A bucket, with the calls of `FreeInterval` that have begun so far. -/
structure CountedBucket where
  bucket : AtomicBucket
  freeIntervalCalls : Nat

namespace CountedBucket

open AtomicBucket

/-- Every interleaving of the steps of threads without a cache, with no more
calls of `FreeInterval` than the counter has room for. -/
def system (elementSize size : Nat) : Transition CountedBucket Move where
  start := fun s => Start elementSize size s.bucket ∧ s.freeIntervalCalls = 0
  allowed := fun s move => s.bucket.Allowed move ∧ move.Uncached ∧
    s.freeIntervalCalls + move.freeIntervalCalls < 2 ^ 32 - (size / elementSize - 1)
  next := fun s move => ⟨s.bucket.step move, s.freeIntervalCalls + move.freeIntervalCalls⟩

instance (elementSize size : Nat) (s : CountedBucket) (move : Move) :
    Decidable ((system elementSize size).allowed s move) :=
  inferInstanceAs (Decidable (_ ∧ _ ∧ _))

/-- What holds in every state of every run. -/
structure Sound (elementSize size : Nat) (s : CountedBucket) (central : List Nat) : Prop where
  owned : Owned (IsBlock elementSize size) s.bucket central
  tagged : Tagged s.bucket central
  counted : Counted (size / elementSize) s.freeIntervalCalls s.bucket
  bound : size / elementSize - 1 + s.freeIntervalCalls < 2 ^ 32

theorem Sound.step (cut : Cut elementSize size) {s : CountedBucket}
    (sound : Sound elementSize size s central) {move : Move}
    (allowed : (system elementSize size).allowed s move) :
    Sound elementSize size ((system elementSize size).next s move)
      (s.bucket.after central move) := by
  rcases allowed with ⟨permitted, uncached, few⟩
  refine ⟨?_, ?_, ?_, ?_⟩
  · exact sound.owned.step (fun _ block => IsBlock.small cut.fits block) permitted
      (sound.tagged.unremembered move)
  · apply sound.tagged.step sound.owned permitted uncached
    intro t waits
    exact Nat.lt_of_le_of_lt (sound.counted.draws waits) sound.bound
  · exact sound.counted.step sound.tagged permitted uncached sound.bound
  · change _ + (s.freeIntervalCalls + move.freeIntervalCalls) < _
    omega

theorem sound_of_reachable (cut : Cut elementSize size) {s : CountedBucket}
    (reachable : (system elementSize size).Reachable s) :
    ∃ central, Sound elementSize size s central := by
  apply reachable.invariant
  · rintro first ⟨start, none⟩
    have initial := Start.initial start cut.fits
    have few := cut.fits.count_lt
    refine ⟨_, initial.owned cut.fits, initial.tagged cut, ?_, ?_⟩
    · rw [none]
      exact initial.counted cut.fits
    · rw [none]
      omega
  · rintro before move - ⟨central, sound⟩ allowed
    exact ⟨_, sound.step cut allowed⟩

/-- Every step pops, pushes, finds the stack empty or does not show. -/
theorem simulation (cut : Cut elementSize size) :
    Transition.Simulation (system elementSize size) StackStep
      (fun s => s.bucket.stack elementSize size) (fun s move => s.bucket.event move) := by
  intro s move reachable allowed
  rcases sound_of_reachable cut reachable with ⟨central, sound⟩
  have later := sound.step cut allowed
  have before := sound.owned.stack_eq
  have behind := later.owned.stack_eq
  have step := sound.owned.stackStep sound.tagged (later.owned.custody.nodup .central)
  cases shown : s.bucket.event move with
  | some label =>
      simp only [shown, before, behind] at step ⊢
      exact step
  | none =>
      simp only [shown, before, behind] at step ⊢
      exact step

/-- The block that a compare-exchange of `Alloc` pops is the one it returns, and
the link it installs is the one in the block. -/
structure Faithful (elementSize size : Nat) (s : AtomicBucket) : Prop where
  nodup : (s.stack elementSize size).Nodup
  block : forall o, o ∈ s.stack elementSize size -> IsBlock elementSize size o ∧ o ∉ s.held
  returned : forall t o, s.event (.proceed t) = some (.pop t o) ->
    (s.step (.proceed t)).held = o :: s.held
  current : forall t headValue nextValue, s.point t = .allocRead headValue nextValue ->
    s.head = headValue -> nextValue = s.link headValue.offset.toNat

/-- The last load of thread `t` in the run found the stack empty. -/
def SawEmpty (elementSize size : Nat) (first : CountedBucket) (moves : List Move) (t : Nat) : Prop :=
  ∃ before load later, moves = before ++ load :: later ∧
    (forall move, move ∈ later -> move.thread ≠ some t) ∧
    ((system elementSize size).run first before).bucket.event load = some (.empty t) ∧
    ((system elementSize size).run first before).bucket.stack elementSize size = []

/-- A call of `Alloc` that is about to return null saw the stack empty. -/
theorem sawEmpty (cut : Cut elementSize size) {first : CountedBucket}
    (start : (system elementSize size).start first) {moves : List Move}
    (permitted : (system elementSize size).Permitted first moves)
    (null : ((system elementSize size).run first moves).bucket.point t =
      .allocLoaded TaggedIndex.invalid) : SawEmpty elementSize size first moves t := by
  induction moves using List.reverseRecOn with
  | nil =>
      have idle := (Start.initial start.1 cut.fits).point t
      have atStart : first.bucket.point t = .allocLoaded TaggedIndex.invalid := null
      rw [idle] at atStart
      cases atStart
  | append_singleton moves move ih =>
      rcases (Transition.permitted_append _ _ _ _).mp permitted with ⟨earlier, ⟨-, uncached, -⟩, -⟩
      rw [Transition.run_append] at null
      by_cases own : move.thread = some t
      · have shown := event_of_null uncached own null
        refine ⟨moves, move, [], rfl, ?_, shown, stack_of_empty shown⟩
        intro other impossible
        cases impossible
      · have kept := step_point_of_ne own (s := ((system elementSize size).run first moves).bucket)
        rcases ih earlier (kept.symm.trans null) with ⟨before, load, later, parts, others, saw⟩
        refine ⟨before, load, later ++ [move], ?_, ?_, saw⟩
        · rw [parts, List.append_assoc]
          rfl
        · intro other member
          rcases List.mem_append.mp member with inside | last
          · exact others other inside
          · rw [List.mem_singleton.mp last]
            exact own

theorem Sound.faithful {s : CountedBucket}
    (sound : Sound elementSize size s central) : Faithful elementSize size s.bucket := by
  have list := sound.owned.stack_eq
  refine ⟨?_, ?_, ?_, ?_⟩
  · rw [list]
    exact sound.owned.custody.nodup .central
  · intro o member
    rw [list] at member
    have listed : o ∈ s.bucket.keeps central .central := member
    refine ⟨sound.owned.custody.supplied _ listed, ?_⟩
    intro held
    have inClient : o ∈ s.bucket.keeps central .client := held
    cases sound.owned.owner_unique listed inClient
  · exact fun t o shown => held_of_pop shown
  · intro t headValue nextValue here same
    exact (sound.owned.pop here same).2.1

/-- Without thread caches, with less than as many calls of `FreeInterval` as
there are tags left by `Create`, every run is a run of the atomic stack. -/
theorem refines_stack (cut : Cut elementSize size) {first : CountedBucket}
    (start : (system elementSize size).start first) {moves : List Move}
    (permitted : (system elementSize size).Permitted first moves) :
    let last := (system elementSize size).run first moves
    Transition.Path StackStep (createdList elementSize size)
      ((system elementSize size).trace (fun s move => s.bucket.event move) first moves)
      (last.bucket.stack elementSize size) ∧
    Faithful elementSize size last.bucket ∧
    forall t, last.bucket.point t = .allocLoaded TaggedIndex.invalid ->
      SawEmpty elementSize size first moves t := by
  intro last
  have reached : (system elementSize size).Reachable first := Transition.Reachable.start start
  have path := (simulation cut).run reached permitted
  rw [((Start.initial start.1 cut.fits).owned cut.fits).stack_eq] at path
  rcases sound_of_reachable cut (reached.after permitted) with ⟨central, sound⟩
  exact ⟨path, sound.faithful, fun t => sawEmpty cut start permitted⟩

/-- Two blocks and two threads.  Thread 1 stops with a link that it has read,
thread 0 takes both blocks, finds nothing more, writes into the first one and
gives it back.  Thread 1 goes on and fails, and then takes that block. -/
def stalledRun : List Move :=
  [.alloc 1, .proceed 1, .alloc 0, .proceed 0, .proceed 0, .alloc 0, .proceed 0, .proceed 0,
    .alloc 0, .proceed 0, .write 0 ⟨7, 7⟩, .free 0 0, .proceed 0, .proceed 0, .proceed 0,
    .proceed 0, .proceed 1, .proceed 1, .proceed 1, .alloc 0]

/-- Allocator 0 has one bucket of two blocks of 16 bytes. -/
def twoBlocks : CountedBucket where
  bucket := ofBucket (PoolBucket.create {
    mem := fun _ => 0
    allocs := fun _ => { Allocator.constructed with
      buckets := fun _ => ⟨⟨0, 0⟩, 8192, 8224, 0⟩ }
    tls := fun _ _ => TlsPoolBucket.zero
    heap := ⟨[], fun _ => 0, 0, []⟩ } 0 0 16) 0 0
  freeIntervalCalls := 0

theorem refines_stack_twoBlocks :
    Transition.Path StackStep [0, 16]
      [.pop 0 0, .pop 0 16, .empty 0, .push 0 0, .pop 1 0, .empty 0] [] ∧
    SawEmpty 16 32 twoBlocks stalledRun 0 := by
  have cut : Cut 16 32 := ⟨by decide, by decide, by decide⟩
  have start : (system 16 32).start twoBlocks := ⟨⟨_, 0, 0, rfl, rfl⟩, rfl⟩
  have permitted : (system 16 32).Permitted twoBlocks stalledRun := by decide +kernel
  rcases refines_stack cut start permitted with ⟨path, -, saw⟩
  have shown : (system 16 32).trace (fun s move => s.bucket.event move) twoBlocks stalledRun =
      [.pop 0 0, .pop 0 16, .empty 0, .push 0 0, .pop 1 0, .empty 0] := by decide +kernel
  have left : ((system 16 32).run twoBlocks stalledRun).bucket.stack 16 32 = [] := by
    decide +kernel
  have null : ((system 16 32).run twoBlocks stalledRun).bucket.point 0 =
      .allocLoaded TaggedIndex.invalid := by decide +kernel
  rw [shown, left] at path
  exact ⟨path, saw 0 null⟩

end CountedBucket

end SmMalloc
