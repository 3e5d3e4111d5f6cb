import Mathlib.Logic.Function.Iterate
import SmMalloc.Atomic.Rest

namespace SmMalloc

open Foundation

/-!
# Calls that nobody interrupts

A call that nobody interrupts takes at most ten steps, and all steps together
do what the whole call does.  So the interleavings in which the calls happen
one after the other are the sessions of threads without a cache, and what is
known of sessions is known of the steps that the source really takes.
-/

variable {scheme : Partitioning} {pool : Pool scheme} {s : AtomicPool} {w : World}
variable {a i p t bytesCount alignment : Nat} {request : Request} {errand : Errand} {rest : List Nat}
variable {_bucketsCount _bucketSizeInBytes : Nat}

namespace AtomicPool

@[simp] theorem goto_errand (s : AtomicPool) (t : Nat) (errand : Errand) :
    (s.goto t errand).errand t = errand := Function.update_self _ _ _

@[simp] theorem goto_world (s : AtomicPool) (t : Nat) (errand : Errand) :
    (s.goto t errand).world = s.world := rfl

@[simp] theorem goto_goto (s : AtomicPool) (t : Nat) (first second : Errand) :
    (s.goto t first).goto t second = s.goto t second := by
  simp [goto]

/-- What a step has done to the machine stays when its thread goes on. -/
@[simp] theorem goto_become_goto (s : AtomicPool) (t : Nat) (first second : Errand) (m : Machine) :
    ((s.goto t first).become m).goto t second = (s.become m).goto t second :=
  goto_goto (s.become m) t first second

@[simp] theorem become_machine (s : AtomicPool) (m : Machine) :
    (s.become m).world.toMachine = m := rfl

/-- The next steps of thread `t`, if nobody else takes one. -/
def alone (scheme : Partitioning) (a t n : Nat) (s : AtomicPool) : AtomicPool :=
  (fun s => s.proceed scheme a t)^[n] s

theorem alone_succ (n : Nat) :
    s.alone scheme a t (n + 1) = (s.proceed scheme a t).alone scheme a t n := rfl

theorem alone_add (first second : Nat) : s.alone scheme a t (first + second) =
    (s.alone scheme a t first).alone scheme a t second := by
  rw [Nat.add_comm]
  exact Function.iterate_add_apply _ _ _ _

theorem run_alone (n : Nat) : forall s : AtomicPool,
    (system scheme a _bucketsCount _bucketSizeInBytes).run s (List.replicate n (.proceed t)) =
      s.alone scheme a t n := by
  induction n with
  | zero => exact fun _ => rfl
  | succ n ih => exact fun s => ih (s.proceed scheme a t)

/-- A thread that has nothing to do stays where it is. -/
theorem alone_idle (idle : s.errand t = .idle) (n : Nat) : s.alone scheme a t n = s := by
  induction n with
  | zero => rfl
  | succ n ih =>
      have still : s.proceed scheme a t = s := by
        simp only [proceed, idle]
      rw [alone_succ, still, ih]

/-- It is there after any larger number of steps. -/
theorem alone_of_le {n k : Nat} (enough : n ≤ k) (idle : (s.alone scheme a t n).errand t = .idle) :
    s.alone scheme a t k = s.alone scheme a t n := by
  obtain ⟨more, rfl⟩ := Nat.exists_eq_add_of_le enough
  rw [alone_add, alone_idle idle]

/-! ## Allocation -/

/-- An allocation of thread `t` has come back with `p`. -/
def returned (s : AtomicPool) (t p : Nat) (m : Machine) : AtomicPool :=
  { s.become m with held := if p = 0 then s.held else p :: s.held }.goto t .idle

theorem returned_errand (s : AtomicPool) (t p : Nat) (m : Machine) :
    (s.returned t p m).errand t = .idle := goto_errand _ t _

theorem goto_returned (s : AtomicPool) (t : Nat) (errand : Errand) (p : Nat) (m : Machine) :
    (s.goto t errand).returned t p m = s.returned t p m := by
  simp [goto, returned, become]

/-- The search ends. -/
theorem proceed_outside (here : s.errand t = .round request i)
    (outside : ¬ i < request.maxBucketIndex) :
    s.proceed scheme a t = s.goto t (.generic request) := by
  simp only [proceed, here, if_neg outside]

theorem proceed_inside (here : s.errand t = .round request i) (inside : i < request.maxBucketIndex) :
    s.proceed scheme a t = s.goto t (.popping request i (.allocLoaded (s.world.bucket a i).head)) := by
  simp only [proceed, here, if_pos inside]

/-- A list that is empty is left after two steps. -/
theorem alone_miss (here : s.errand t = .round request i) (inside : i < request.maxBucketIndex)
    (empty : (s.world.bucket a i).head = TaggedIndex.invalid) :
    s.alone scheme a t 2 = s.goto t (onMiss scheme request i) := by
  have second : (s.goto t (.popping request i (.allocLoaded TaggedIndex.invalid))).proceed
      scheme a t = s.goto t (onMiss scheme request i) := by
    simp only [proceed, goto_errand, PoolBucket.allocStep, if_true, popped, ne_eq,
      not_true_eq_false, if_false]
    exact goto_goto s t _ _
  rw [alone_succ, proceed_inside here inside, empty, alone_succ, second]
  rfl

/-- A list that is not empty has lost a block after three steps. -/
theorem alone_hit (here : s.errand t = .round request i) (inside : i < request.maxBucketIndex)
    (nonzero : (PoolBucket.alloc s.world.toMachine a i).1 ≠ 0) :
    s.alone scheme a t 3 = s.returned t (PoolBucket.alloc s.world.toMachine a i).1
      (PoolBucket.alloc s.world.toMachine a i).2 := by
  have running : (s.world.bucket a i).head ≠ TaggedIndex.invalid := by
    intro empty
    apply nonzero
    simp only [PoolBucket.alloc, if_pos empty]
  have second : (s.goto t (.popping request i (.allocLoaded (s.world.bucket a i).head))).proceed
      scheme a t = s.goto t (.popping request i (.allocRead (s.world.bucket a i).head
        (TaggedIndex.load s.world.mem ((s.world.bucket a i).pData +
          (s.world.bucket a i).head.offset.toNat)))) := by
    simp only [proceed, goto_errand, goto_world, PoolBucket.allocStep, if_neg running, popped]
    exact goto_goto s t _ _
  simp only [PoolBucket.alloc, if_neg running] at nonzero ⊢
  have third : forall nextValue, (s.goto t (.popping request i
      (.allocRead (s.world.bucket a i).head nextValue))).proceed scheme a t =
        s.returned t ((s.world.bucket a i).pData + (s.world.bucket a i).head.offset.toNat)
          (s.world.toMachine.setBucket a i { s.world.bucket a i with head := nextValue }) := by
    intro nextValue
    simp only [proceed, goto_errand, goto_world, PoolBucket.allocStep, if_true]
    rw [popped_returns nonzero, returned, if_neg nonzero]
    simp only [goto, become, Function.update_idem]
  rw [alone_succ, proceed_inside here inside, alone_succ, second, alone_succ, third]
  rfl

theorem alone_generic (here : s.errand t = .generic request) :
    s.alone scheme a t 1 = s.returned t (s.world.heap.answer request.bytesCount request.alignment)
      { s.world.toMachine with
        heap := (s.world.heap.alloc request.bytesCount request.alignment).2 } := by
  have only : s.alone scheme a t 1 = s.proceed scheme a t := rfl
  rw [only]
  simp only [proceed, here]
  rfl

/-- A list that gives null is empty. -/
theorem head_of_miss {m : Machine} (anchored : (m.bucket a i).pData ≠ 0)
    (missed : (PoolBucket.alloc m a i).1 = 0) : (m.bucket a i).head = TaggedIndex.invalid := by
  by_contra running
  simp only [PoolBucket.alloc, if_neg running] at missed
  exact anchored (Nat.eq_zero_of_add_eq_zero_right missed)

/-- The search through the lists, as the loop does it. -/
theorem alone_central (scheme : Partitioning) (enableStatistic : Bool) (valid : ValidAlignment request.alignment)
    (t : Nat) : forall (rounds i : Nat) (w : World) (s : AtomicPool),
    s.world.toMachine = w.toMachine -> s.errand t = .round request i ->
    request.maxBucketIndex ≤ i + rounds ->
    (forall j, j < request.maxBucketIndex -> (w.bucket a j).pData ≠ 0) ->
    let popped := Allocator.allocateFromCentral scheme enableStatistic a request.alignment
      request.maxBucketIndex rounds i w
    ∃ n, n ≤ 2 * rounds + 1 ∧
      ((popped.1 ≠ 0 ∧ s.alone scheme a t n = s.returned t popped.1 popped.2.toMachine) ∨
        (popped.1 = 0 ∧ popped.2.toMachine = w.toMachine ∧
          s.alone scheme a t n = s.goto t (.generic request))) := by
  intro rounds
  induction rounds with
  | zero =>
      intro i w s same here few anchored popped
      refine ⟨1, Nat.le_refl _, Or.inr ⟨rfl, rfl, ?_⟩⟩
      exact proceed_outside here (by omega)
  | succ rounds ih =>
      intro i w s same here few anchored popped
      by_cases inside : i < request.maxBucketIndex
      · have opened : popped = Allocator.allocateFromCentral scheme enableStatistic a
          request.alignment request.maxBucketIndex (rounds + 1) i w := rfl
        simp only [Allocator.allocateFromCentral, if_pos inside, World.check_toMachine] at opened
        by_cases missed : (PoolBucket.alloc w.toMachine a i).1 = 0
        · have empty := head_of_miss (anchored i inside) missed
          have unchanged : PoolBucket.alloc w.toMachine a i = (0, w.toMachine) := by
            simp only [PoolBucket.alloc, if_pos empty]
          have left : s.alone scheme a t 2 = s.goto t (onMiss scheme request i) :=
            alone_miss here inside (by rw [same]; exact empty)
          simp only [unchanged, ne_eq, not_true_eq_false, if_false] at opened
          cases found : Allocator.nextAligned scheme request.alignment
              Allocator.alignedSearchSteps i with
          | none =>
              have ended : onMiss scheme request i = .generic request := by
                simp only [onMiss, found]
              rw [ended] at left
              rw [found] at opened
              refine ⟨2, by omega, Or.inr ⟨?_, ?_, left⟩⟩
              · rw [opened]
              · rw [opened, World.countBucket_toMachine]
          | some next =>
              have onward : onMiss scheme request i = .round request next := by
                simp only [onMiss, found]
              rw [onward] at left
              rw [found] at opened
              have above := nextAligned_some valid _ i found
              simp only at opened
              generalize entered : World.countBucket _ _ _ _ _ = counted at opened
              have machine : counted.toMachine = w.toMachine := by
                rw [← entered, World.countBucket_toMachine]
              rcases ih next counted (s.goto t (.round request next)) (same.trans machine.symm)
                (goto_errand s t _) (by omega) (by rw [machine]; exact anchored) with
                ⟨n, few, continued⟩
              rw [← opened, machine] at continued
              refine ⟨2 + n, by omega, ?_⟩
              rw [alone_add, left]
              simpa only [goto_returned, goto_goto] using continued
        · rw [if_pos missed] at opened
          refine ⟨3, by omega, Or.inl ⟨?_, ?_⟩⟩
          · rw [opened]
            exact missed
          · rw [opened, World.countBucket_toMachine, World.countGlobal_toMachine, ← same]
            exact alone_hit here inside (by rw [same]; exact missed)
      · have opened : popped = (0, w) := if_neg inside
        rw [opened]
        exact ⟨1, by omega, Or.inr ⟨rfl, rfl, proceed_outside here inside⟩⟩

/-- The search and what comes after it take at most ten steps. -/
theorem alone_search (scheme : Partitioning) (isValidBucket : Bool)
    (valid : ValidAlignment request.alignment) (same : s.world.toMachine = w.toMachine)
    (here : s.errand t = .round request i) (few : request.maxBucketIndex ≤ i + 4)
    (anchored : forall j, j < request.maxBucketIndex -> (w.bucket a j).pData ≠ 0) :
    let popped := Allocator.allocateFromCentral scheme true a request.alignment
      request.maxBucketIndex 4 i w
    let r := if popped.1 ≠ 0 then popped
      else Allocator.allocateFromGeneric true isValidBucket a request.bytesCount request.alignment
        popped.2
    s.alone scheme a t 10 = s.returned t r.1 r.2.toMachine := by
  intro popped r
  rcases alone_central scheme true valid t 4 i w s same here few anchored with
    ⟨n, short, ⟨nonzero, reached⟩ | ⟨zero, unchanged, reached⟩⟩
  · have result : r = popped := if_pos nonzero
    have enough : n ≤ 10 := by omega
    rw [alone_of_le enough (by rw [reached, returned_errand]), reached, result]
  · have result : r = Allocator.allocateFromGeneric true isValidBucket a request.bytesCount
        request.alignment popped.2 := if_neg (not_not.mpr zero)
    have answered := allocateFromGeneric_eq true isValidBucket a request.bytesCount
      request.alignment popped.2
    have last : s.alone scheme a t (n + 1) = s.returned t r.1 r.2.toMachine := by
      rw [alone_add, reached, alone_generic (goto_errand s t _), goto_returned, goto_world, result,
        answered.1, answered.2.1, unchanged, same]
    have enough : n + 1 ≤ 10 := by omega
    rw [alone_of_le enough (by rw [last, returned_errand]), last]

/-- A thread without a cache finds nothing in it. -/
theorem allocateFromThreadCache_uncached (enableStatistic : Bool) (i : Nat)
    (uncached : (w.tls t i).Idle) :
    Allocator.allocateFromThreadCache enableStatistic a t i w = (0, w) := by
  have empty : (w.tls t i).getElementsCount = 0 := by
    rw [TlsPoolBucket.getElementsCount, uncached.numElementsL0, uncached.numElementsL1]
  unfold Allocator.allocateFromThreadCache
  split
  · rw [allocFromCache_empty empty]
    rfl
  · rfl

/-- Ten steps are enough for a call of `Alloc`. -/
theorem alone_alloc (same : s.world.toMachine = w.toMachine)
    (represents : pool.Represents (w.allocs a)) (uncached : forall i, (w.tls t i).Idle)
    (valid : ValidAlignment alignment) (positive : bytesCount ≠ 0) :
    (s.beginAlloc scheme a t bytesCount alignment).alone scheme a t 10 =
      s.returned t (Allocator.alloc scheme w a t bytesCount alignment).1
        (Allocator.alloc scheme w a t bytesCount alignment).2.toMachine := by
  rcases allocate_opened scheme true w a t valid positive with ⟨counted, machine, -, -, opened⟩
  rw [allocateFromThreadCache_uncached _ _ (by rw [machine]; exact uncached _)] at opened
  simp only [ne_eq, not_true_eq_false, if_false, machine, represents.bucketsCount] at opened
  let maxBucketIndex := min pool.bucketsCount
    ((requestIndex scheme bytesCount alignment + 4) % 2 ^ 64)
  let request : Request := ⟨bytesCount, alignment, maxBucketIndex⟩
  let errand : Errand := .round request (requestIndex scheme bytesCount alignment)
  have started : s.beginAlloc scheme a t bytesCount alignment = s.goto t errand := by
    simp only [beginAlloc, if_neg positive, same, represents.bucketsCount]
    rfl
  have few : request.maxBucketIndex ≤ requestIndex scheme bytesCount alignment + 4 :=
    Nat.le_trans (Nat.min_le_right _ _) (Nat.mod_le _ _)
  have anchored : forall j, j < request.maxBucketIndex -> (counted.bucket a j).pData ≠ 0 := by
    intro j below
    have bound : j < pool.bucketsCount := Nat.lt_of_lt_of_le below (Nat.min_le_left _ _)
    rw [machine, Machine.bucket, represents.pData j bound]
    exact pool.block_ne_zero j 0
  have here : (s.goto t errand).errand t = .round request
      (requestIndex scheme bytesCount alignment) := goto_errand s t errand
  have searched := alone_search (s := s.goto t errand) scheme
    (decide (requestIndex scheme bytesCount alignment < pool.bucketsCount))
    valid (same.trans machine.symm) here few anchored
  rw [started, Allocator.alloc, opened]
  exact searched.trans (goto_returned s t errand _ _)

/-! ## Release -/

/-- The steps of a call of `FreeInterval` together do what the whole call does. -/
theorem alone_pushing (s : AtomicPool) (t : Nat) {pHead : Nat}
    (address : p = (s.world.bucket a i).pData + pHead)
    (offset : sizeSub p (s.world.bucket a i).pData = pHead) :
    (s.goto t (.pushing i (.freeInterval ⟨pHead, []⟩))).alone scheme a t 4 =
      (s.become (PoolBucket.freeInterval s.world.toMachine a i p p)).goto t .idle := by
  obtain ⟨b, isBucket⟩ : ∃ b, b = s.world.bucket a i := ⟨_, rfl⟩
  rw [← isBucket] at address offset
  let nodeValue : TaggedIndex := ⟨b.globalTag, UInt32.ofNat pHead⟩
  let drawn := s.world.toMachine.setBucket a i { b with globalTag := b.globalTag + 1 }
  have drawnBucket : drawn.bucket a i = { b with globalTag := b.globalTag + 1 } :=
    Machine.setBucket_bucket_same _ _ _ _
  let linked : Machine := { drawn with mem := TaggedIndex.store drawn.mem p b.head }
  have first : (s.goto t (.pushing i (.freeInterval ⟨pHead, []⟩))).proceed scheme a t =
      (s.become drawn).goto t (.pushing i (.freeTagged ⟨pHead, []⟩ nodeValue)) := by
    simp only [proceed, goto_errand, goto_world, PoolBucket.freeIntervalStep, ← isBucket,
      pushed, goto_become_goto, nodeValue, drawn]
  have second : ((s.become drawn).goto t (.pushing i (.freeTagged ⟨pHead, []⟩ nodeValue))).proceed
      scheme a t = (s.become drawn).goto t (.pushing i (.freeLoaded ⟨pHead, []⟩ nodeValue b.head)) := by
    simp only [proceed, goto_errand, goto_world, become_machine, PoolBucket.freeIntervalStep,
      drawnBucket, pushed, goto_become_goto]
    rfl
  have third : ((s.become drawn).goto t
      (.pushing i (.freeLoaded ⟨pHead, []⟩ nodeValue b.head))).proceed scheme a t =
        (s.become linked).goto t (.pushing i (.freeLinked ⟨pHead, []⟩ nodeValue b.head)) := by
    simp only [proceed, goto_errand, goto_world, become_machine, PoolBucket.freeIntervalStep,
      drawnBucket, pushed, goto_become_goto, linked, address]
    rfl
  have fourth : ((s.become linked).goto t
      (.pushing i (.freeLinked ⟨pHead, []⟩ nodeValue b.head))).proceed scheme a t =
        (s.become (linked.setBucket a i { b with
          globalTag := b.globalTag + 1
          head := nodeValue })).goto t .idle := by
    have linkedBucket : linked.bucket a i = { b with globalTag := b.globalTag + 1 } := drawnBucket
    simp only [proceed, goto_errand, goto_world, become_machine, PoolBucket.freeIntervalStep,
      linkedBucket, if_true, pushed, goto_become_goto]
    rfl
  have whole : linked.setBucket a i { b with globalTag := b.globalTag + 1, head := nodeValue } =
      PoolBucket.freeInterval s.world.toMachine a i p p := by
    simp only [PoolBucket.freeInterval, ← isBucket, offset]
    exact Machine.setBucket_setBucket { s.world.toMachine with mem := linked.mem } a i _ _
  rw [alone_succ, first, alone_succ, second, alone_succ, third, alone_succ, fourth, whole]
  rfl

/-- Of a block of the pool. -/
theorem beginFree_block (represents : pool.Represents (s.world.allocs a))
    (bound : i < pool.bucketsCount) {o : Nat} (block : pool.IsBlock i o) :
    s.beginFree a t (pool.pData i + o) = { s with
      held := s.held.erase (pool.pData i + o)
      freeIntervalCalls := Function.update s.freeIntervalCalls i (s.freeIntervalCalls i + 1)
      }.goto t (.pushing i (.freeInterval ⟨o, []⟩)) := by
  have data : (s.world.bucket a i).pData = pool.pData i := represents.pData i bound
  simp only [beginFree, if_neg (not_unreadable (pool.block_readable i o)), represents.findBucket,
    Pool.findBucket_block bound block, represents.bucketsCount, if_pos bound, data,
    Pool.sizeSub_block bound block]

/-- Of any other block. -/
theorem beginFree_generic (represents : pool.Represents (s.world.allocs a))
    (above : kMaxValidAlignment < p) (outside : pool.bucketsCount ≤ pool.findBucket p) :
    s.beginFree a t p = { s with held := s.held.erase p }.become
      { s.world.toMachine with heap := s.world.heap.free p } := by
  simp only [beginFree, if_neg (not_unreadable above), represents.findBucket,
    represents.bucketsCount, if_neg (Nat.not_lt_of_le outside)]

end AtomicPool

/-! ## One operation after the other -/

namespace Op

/-- The operations of a thread without a cache that are modelled step by step. -/
def Plain : Op -> Prop
  | .alloc _ _ _ => True
  | .free _ _ => True
  | .write _ _ _ => True
  | _ => False

/-- The steps of an operation that nobody interrupts. -/
def moves : Op -> List PoolMove
  | .alloc t bytesCount alignment =>
      .alloc t bytesCount alignment :: List.replicate 10 (.proceed t)
  | .free t p => .free t p :: List.replicate 4 (.proceed t)
  | .write p k v => [.write p k v]
  | _ => []

end Op

/-- Nobody is at work, and all is as in the session, but for the counters. -/
structure Mirrors (session : Session) (s : AtomicPool) : Prop where
  machine : s.world.toMachine = session.world.toMachine
  held : s.held = session.held
  idle : forall t, s.errand t = .idle

namespace Mirrors

variable {session : Session}

theorem goto_idle {session' : Session} {s' : AtomicPool} (idle : forall u, s'.errand u = .idle)
    (machine : s'.world.toMachine = session'.world.toMachine) (held : s'.held = session'.held)
    (t : Nat) : Mirrors session' (s'.goto t .idle) where
  machine := machine
  held := held
  idle := by
    intro u
    by_cases same : u = t
    · subst same
      exact AtomicPool.goto_errand s' u .idle
    · exact (Function.update_of_ne same _ _).trans (idle u)

theorem alloc (mirrors : Mirrors session s) (sound : session.Sound pool a rest)
    (uncached : forall i, (session.world.tls t i).Idle) (valid : ValidAlignment alignment) :
    Mirrors (session.step scheme a (.alloc t bytesCount alignment))
      ((s.beginAlloc scheme a t bytesCount alignment).alone scheme a t 10) := by
  by_cases empty : bytesCount = 0
  · subst empty
    have nothing : s.beginAlloc scheme a t 0 alignment = s := if_pos rfl
    rw [nothing, AtomicPool.alone_idle (mirrors.idle t), Session.step,
      Session.Sound.alloc_empty valid]
    exact ⟨mirrors.machine, mirrors.held, mirrors.idle⟩
  · have represents := SmMalloc.Sound.inv sound |>.represents
    rw [AtomicPool.alone_alloc mirrors.machine represents uncached valid empty]
    refine goto_idle ?_ ?_ ?_ t
    · exact mirrors.idle
    · rfl
    · simp only [Session.step, Session.grant, empty, false_or, mirrors.held]

theorem free (mirrors : Mirrors session s) (sound : session.Sound pool a rest)
    (uncached : forall i, (session.world.tls t i).Idle) (returnable : session.Returnable p) :
    Mirrors (session.step scheme a (.free t p)) ((s.beginFree a t p).alone scheme a t 4) := by
  have inv := SmMalloc.Sound.inv sound
  have represents : pool.Represents (s.world.allocs a) := by
    rw [mirrors.machine]
    exact inv.represents
  rcases returnable with small | member
  · have nothing : s.beginFree a t p = s := if_pos (isReadable_of_le small)
    rw [nothing, AtomicPool.alone_idle (mirrors.idle t)]
    refine ⟨?_, ?_, mirrors.idle⟩
    · rw [mirrors.machine, Session.step, free_empty small]
    · rw [mirrors.held]
      exact (sound.erase_empty small).symm
  · have readable := sound.readable member
    rcases (SmMalloc.Sound.inv (sound.returned member)).outside_cases readable.2 with
      outside | ⟨i, o, bound, block, rfl⟩
    · have freed : Allocator.free session.world a t p =
          { session.world with heap := session.world.heap.free p } :=
        inv.free_generic readable.1 outside
      rw [AtomicPool.beginFree_generic represents readable.1 outside]
      rw [AtomicPool.alone_idle (by exact mirrors.idle t)]
      refine ⟨?_, ?_, mirrors.idle⟩
      · rw [Session.step, freed, AtomicPool.become_machine, mirrors.machine]
      · rw [Session.step, ← mirrors.held]
        rfl
    · rcases inv.free_block_eq bound block (t := t) with ⟨counted, machine, -, -, opened⟩
      have refused : Allocator.releaseToCache true counted t i (pool.pData i + o) =
          (false, counted) := by
        apply if_pos
        rw [machine]
        exact (uncached i).maxElementsCount
      rw [refused, if_neg Bool.false_ne_true] at opened
      have data : (s.world.bucket a i).pData = pool.pData i := represents.pData i bound
      let begun : AtomicPool := { s with
        held := s.held.erase (pool.pData i + o)
        freeIntervalCalls := Function.update s.freeIntervalCalls i (s.freeIntervalCalls i + 1) }
      have last : (s.beginFree a t (pool.pData i + o)).alone scheme a t 4 =
          (begun.become (PoolBucket.freeInterval s.world.toMachine a i (pool.pData i + o)
            (pool.pData i + o))).goto t .idle := by
        rw [AtomicPool.beginFree_block represents bound block]
        apply AtomicPool.alone_pushing begun t (congrArg (· + o) data.symm)
        change sizeSub _ (s.world.bucket a i).pData = o
        rw [data, Pool.sizeSub_block bound block]
      rw [last]
      refine goto_idle ?_ ?_ ?_ t
      · exact mirrors.idle
      · rw [Session.step, opened, AtomicPool.become_machine, mirrors.machine, machine]
      · rw [Session.step, ← mirrors.held]
        rfl

/-- The steps of an operation, taken together, are the operation. -/
theorem step {op : Op} (mirrors : Mirrors session s) (sound : session.Sound pool a rest)
    (uncached : forall u i, (session.world.tls u i).Idle)
    (allowed : Session.Allowed scheme a session op) (plain : op.Plain) :
    Mirrors (session.step scheme a op)
      ((AtomicPool.system scheme a _bucketsCount _bucketSizeInBytes).run s op.moves) := by
  cases op with
  | alloc t bytesCount alignment =>
      have last : Mirrors (session.step scheme a (.alloc t bytesCount alignment))
          ((s.beginAlloc scheme a t bytesCount alignment).alone scheme a t 10) :=
        mirrors.alloc sound (uncached t) allowed.2
      rw [← AtomicPool.run_alone] at last
      exact last
  | free t p =>
      have last := mirrors.free sound (uncached t) allowed
      rw [← AtomicPool.run_alone] at last
      exact last
  | write p k v =>
      refine ⟨?_, mirrors.held, mirrors.idle⟩
      change { s.world.toMachine with mem := s.world.mem.poke (p + k) v } = _
      rw [mirrors.machine]
      rfl
  | realloc t p bytesCount alignment => exact absurd plain id
  | createThreadCache t warmupOptions options => exact absurd plain id
  | destroyThreadCache t => exact absurd plain id

theorem tls {moves : List PoolMove} : forall s : AtomicPool,
    ((AtomicPool.system scheme a _bucketsCount _bucketSizeInBytes).run s moves).world.tls =
      s.world.tls := by
  induction moves with
  | nil => exact fun _ => rfl
  | cons move moves ih => exact fun s => (ih (s.step scheme a move)).trans (s.step_tls move)

/-- What a plain operation needs of the state before it holds after it. -/
theorem keeps_uncached {op : Op} (mirrors : Mirrors session s)
    (uncached : forall u i, (session.world.tls u i).Idle)
    (after : Mirrors (session.step scheme a op)
      ((AtomicPool.system scheme a _bucketsCount _bucketSizeInBytes).run s op.moves)) :
    forall u i, ((session.step scheme a op).world.tls u i).Idle := by
  rw [← after.machine, tls, mirrors.machine]
  exact uncached

/-- So it is with any number of operations. -/
theorem run {ops : List Op} (plain : forall op, op ∈ ops -> op.Plain) :
    forall (session : Session) (s : AtomicPool), Mirrors session s -> session.Sound pool a rest ->
      (forall u i, (session.world.tls u i).Idle) ->
      (Session.system scheme a _bucketsCount _bucketSizeInBytes).Permitted session ops ->
      Mirrors ((Session.system scheme a _bucketsCount _bucketSizeInBytes).run session ops)
        ((AtomicPool.system scheme a _bucketsCount _bucketSizeInBytes).run s
          (ops.flatMap Op.moves)) := by
  induction ops with
  | nil => exact fun _ _ mirrors _ _ _ => mirrors
  | cons op ops ih =>
      intro session s mirrors sound uncached permitted
      have after : Mirrors (session.step scheme a op)
          ((AtomicPool.system scheme a _bucketsCount _bucketSizeInBytes).run s op.moves) :=
        mirrors.step sound uncached permitted.1 (plain op List.mem_cons_self)
      rw [List.flatMap_cons, Foundation.Transition.run_append]
      exact ih (fun later member => plain later (List.mem_cons_of_mem op member)) _ _ after
        (sound.step permitted.1) (mirrors.keeps_uncached uncached after) permitted.2

/-! ## How many calls there have been -/

theorem popped_calls (s : AtomicPool) (t : Nat) (request : Request) (i : Nat) (onward : Onward) :
    (s.popped scheme t request i onward).freeIntervalCalls = s.freeIntervalCalls := by
  cases onward with
  | stays point => rfl
  | returns p =>
      simp only [AtomicPool.popped]
      split <;> rfl

theorem pushed_calls (s : AtomicPool) (t i : Nat) (onward : Onward) :
    (s.pushed t i onward).freeIntervalCalls = s.freeIntervalCalls := by
  cases onward <;> rfl

/-- Only the beginning of a call is counted. -/
theorem proceed_calls (s : AtomicPool) (t : Nat) :
    (s.proceed scheme a t).freeIntervalCalls = s.freeIntervalCalls := by
  cases here : s.errand t with
  | idle => simp only [AtomicPool.proceed, here]
  | round request i =>
      simp only [AtomicPool.proceed, here]
      split <;> rfl
  | popping request i point =>
      simp only [AtomicPool.proceed, here]
      exact popped_calls _ t request i _
  | generic request =>
      simp only [AtomicPool.proceed, here]
      rfl
  | pushing i point =>
      simp only [AtomicPool.proceed, here]
      exact pushed_calls _ t i _

theorem proceeds_calls (scheme : Partitioning) (a _bucketsCount _bucketSizeInBytes t n : Nat) :
    forall s : AtomicPool,
    ((AtomicPool.system scheme a _bucketsCount _bucketSizeInBytes).run s
      (List.replicate n (.proceed t))).freeIntervalCalls = s.freeIntervalCalls := by
  induction n with
  | zero => exact fun _ => rfl
  | succ n ih => exact fun s => (ih (s.proceed scheme a t)).trans (proceed_calls s t)

theorem beginAlloc_calls (s : AtomicPool) (t bytesCount alignment : Nat) :
    (s.beginAlloc scheme a t bytesCount alignment).freeIntervalCalls = s.freeIntervalCalls := by
  simp only [AtomicPool.beginAlloc]
  split <;> rfl

theorem beginFree_calls (s : AtomicPool) (t p i : Nat) :
    (s.beginFree a t p).freeIntervalCalls i ≤ s.freeIntervalCalls i + 1 := by
  simp only [AtomicPool.beginFree]
  split
  · exact Nat.le_succ _
  · split
    · simp only [AtomicPool.goto, Function.update_apply]
      split
      next same => rw [same]
      next => exact Nat.le_succ _
    · exact Nat.le_succ _

/-- An operation calls `FreeInterval` at most once. -/
theorem moves_calls (scheme : Partitioning) (a _bucketsCount _bucketSizeInBytes : Nat) (op : Op)
    (s : AtomicPool) (i : Nat) :
    ((AtomicPool.system scheme a _bucketsCount _bucketSizeInBytes).run s op.moves).freeIntervalCalls
      i ≤ s.freeIntervalCalls i + 1 := by
  cases op with
  | alloc t bytesCount alignment =>
      have later := proceeds_calls scheme a _bucketsCount _bucketSizeInBytes t 10 (s.beginAlloc scheme a t bytesCount alignment)
      rw [beginAlloc_calls] at later
      exact Nat.le_trans (Nat.le_of_eq (congrFun later i)) (Nat.le_succ _)
  | free t p =>
      have later := proceeds_calls scheme a _bucketsCount _bucketSizeInBytes t 4 (s.beginFree a t p)
      exact Nat.le_trans (Nat.le_of_eq (congrFun later i)) (beginFree_calls s t p i)
  | write p k v => exact Nat.le_succ _
  | realloc t p bytesCount alignment => exact Nat.le_succ _
  | createThreadCache t warmupOptions options => exact Nat.le_succ _
  | destroyThreadCache t => exact Nat.le_succ _

/-! ## The steps are permitted -/

theorem permitted_proceeds (t n : Nat) : forall s : AtomicPool,
    (AtomicPool.system scheme a _bucketsCount _bucketSizeInBytes).Permitted s
      (List.replicate n (.proceed t)) := by
  induction n with
  | zero => exact fun _ => trivial
  | succ n ih => exact fun s => ⟨trivial, ih (s.proceed scheme a t)⟩

theorem permitted_step {op : Op} (mirrors : Mirrors session s) (sound : session.Sound pool a rest)
    (allowed : Session.Allowed scheme a session op)
    (left : forall i, i < pool.bucketsCount -> s.TagLeft scheme a i) :
    (AtomicPool.system scheme a _bucketsCount _bucketSizeInBytes).Permitted s op.moves := by
  have represents := SmMalloc.Sound.inv sound |>.represents
  rw [← mirrors.machine] at represents
  cases op with
  | alloc t bytesCount alignment =>
      exact ⟨⟨mirrors.idle t, allowed.1, allowed.2⟩, permitted_proceeds t 10 _⟩
  | free t p =>
      refine ⟨⟨mirrors.idle t, ?_, fun inside => ?_⟩, permitted_proceeds t 4 _⟩
      · rw [mirrors.held]
        exact allowed
      · rw [represents.bucketsCount] at inside
        exact left _ inside
  | write p k v =>
      refine ⟨⟨?_, ?_⟩, trivial⟩
      · rw [mirrors.held]
        exact allowed.1
      · have usable : Allocator.getUsableSize scheme s.world a p =
            Allocator.getUsableSize scheme session.world a p :=
          Session.Sound.usable_of_machine mirrors.machine p
        rw [usable]
        exact allowed.2
  | realloc t p bytesCount alignment => trivial
  | createThreadCache t warmupOptions options => trivial
  | destroyThreadCache t => trivial

/-- As long as there are tags, all operations together are permitted. -/
theorem permitted {ops : List Op} (plain : forall op, op ∈ ops -> op.Plain) :
    forall (session : Session) (s : AtomicPool), Mirrors session s -> session.Sound pool a rest ->
      (forall u i, (session.world.tls u i).Idle) ->
      (Session.system scheme a _bucketsCount _bucketSizeInBytes).Permitted session ops ->
      (forall i, i < pool.bucketsCount -> s.freeIntervalCalls i + ops.length <
        2 ^ 32 - (pool.bucketSizeInBytes / pool.elementSize i - 1)) ->
      (AtomicPool.system scheme a _bucketsCount _bucketSizeInBytes).Permitted s
        (ops.flatMap Op.moves) := by
  induction ops with
  | nil => exact fun _ _ _ _ _ _ _ => trivial
  | cons op ops ih =>
      intro session s mirrors sound uncached permitted few
      have after : Mirrors (session.step scheme a op)
          ((AtomicPool.system scheme a _bucketsCount _bucketSizeInBytes).run s op.moves) :=
        mirrors.step sound uncached permitted.1 (plain op List.mem_cons_self)
      have size : (s.world.allocs a).bucketSizeInBytes = pool.bucketSizeInBytes := by
        rw [mirrors.machine]
        exact (SmMalloc.Sound.inv sound).represents.bucketSizeInBytes
      rw [List.flatMap_cons, Foundation.Transition.permitted_append]
      refine ⟨mirrors.permitted_step sound permitted.1 (fun i bound => ?_), ?_⟩
      · have spare := few i bound
        rw [List.length_cons] at spare
        unfold AtomicPool.TagLeft
        rw [size]
        change _ < 2 ^ 32 - (pool.bucketSizeInBytes / pool.elementSize i - 1)
        omega
      · refine ih (fun later member => plain later (List.mem_cons_of_mem op member)) _ _ after
          (sound.step permitted.1) (mirrors.keeps_uncached uncached after) permitted.2 ?_
        intro i bound
        have spare := few i bound
        have counted := moves_calls scheme a _bucketsCount _bucketSizeInBytes op s i
        rw [List.length_cons] at spare
        omega

end Mirrors

namespace AtomicPool

/-- Nobody is at work in the session. -/
def ofSession (session : Session) : AtomicPool :=
  ⟨session.world, session.held, fun _ => .idle, fun _ => 0⟩

theorem ofSession_start {session : Session}
    (start : (Session.system scheme a _bucketsCount _bucketSizeInBytes).start session) :
    (system scheme a _bucketsCount _bucketSizeInBytes).start (ofSession session) := by
  rcases start with ⟨w, fresh, -, served, rfl⟩
  exact ⟨w, fresh, served, rfl⟩

/-- A session of threads without caches does what the steps of its calls do
when the calls happen one after the other.  As long as no tag comes back, this
is one of the interleavings. -/
theorem serial (integral : scheme ≠ .float)
    (wellFormed : WellFormed scheme _bucketsCount _bucketSizeInBytes) {session : Session}
    (start : (Session.system scheme a _bucketsCount _bucketSizeInBytes).start session)
    {ops : List Op} (plain : forall op, op ∈ ops -> op.Plain)
    (permitted : (Session.system scheme a _bucketsCount _bucketSizeInBytes).Permitted session ops) :
    let steps := ops.flatMap Op.moves
    let system := system scheme a _bucketsCount _bucketSizeInBytes
    Mirrors ((Session.system scheme a _bucketsCount _bucketSizeInBytes).run session ops)
        (system.run (ofSession session) steps) ∧
      ((forall i, i < (session.world.allocs a).bucketsCount -> ops.length < 2 ^ 32 -
          ((session.world.allocs a).bucketSizeInBytes /
            scheme.getBucketSizeInBytesByIndex i - 1)) ->
        system.start (ofSession session) ∧ system.Permitted (ofSession session) steps) := by
  intro steps system
  rcases Session.reachable_sound wellFormed (Partitioning.sized integral)
    (Transition.Reachable.start start) with ⟨pool, rest, -, sound⟩
  have represents := SmMalloc.Sound.inv sound |>.represents
  have mirrors : Mirrors session (ofSession session) := ⟨rfl, rfl, fun _ => rfl⟩
  have idle : forall u i, (session.world.tls u i).Idle :=
    uncached wellFormed.arguments (Transition.Reachable.start (ofSession_start start))
  refine ⟨mirrors.run plain _ _ sound idle permitted, fun few => ⟨ofSession_start start, ?_⟩⟩
  apply mirrors.permitted plain _ _ sound idle permitted
  intro i bound
  have spare := few i (represents.bucketsCount.symm ▸ bound)
  rw [represents.bucketSizeInBytes] at spare
  change 0 + ops.length < _
  rw [Nat.zero_add]
  exact spare

theorem serial_onePage :
    let ops : List Op := [.alloc 1 16 4, .write 8192 0 7, .alloc 0 16 4, .free 0 8192]
    Mirrors ((Session.system .piecewise 0 1 4096).run Session.onePage ops)
        ((system .piecewise 0 1 4096).run (ofSession Session.onePage) (ops.flatMap Op.moves)) ∧
      (system .piecewise 0 1 4096).start (ofSession Session.onePage) ∧
      (system .piecewise 0 1 4096).Permitted (ofSession Session.onePage)
        (ops.flatMap Op.moves) := by
  intro ops
  have permitted : (Session.system .piecewise 0 1 4096).Permitted Session.onePage ops := by
    refine ⟨⟨by decide, valid_four⟩, ⟨by decide +kernel, by decide +kernel⟩,
      ⟨by decide, valid_four⟩, Or.inr (by decide +kernel), trivial⟩
  have plain : forall op, op ∈ ops -> op.Plain := by
    intro op member
    simp only [ops, List.mem_cons, List.not_mem_nil, or_false] at member
    rcases member with rfl | rfl | rfl | rfl <;> trivial
  rcases serial (by decide) (onePage_wellFormed (by decide)) (Session.initial_start (by decide))
    plain permitted with ⟨mirrors, started⟩
  exact ⟨mirrors, started (by decide +kernel)⟩

end AtomicPool

end SmMalloc
