import SmMalloc.Atomic.Parts

namespace SmMalloc

open Foundation

/-!
# All buckets together

A step of a thread is a step of the bucket where the thread is, and no step of
the others: it changes their bytes no more than their heads.  A write of a
client is a write to its block, if the block is in a bucket at all.  So the
buckets are components of the allocator, as long as each of them has at least
two blocks and no more calls of `FreeInterval` than it has tags.
-/

variable {scheme : Partitioning} {pool : Pool scheme} {s first : AtomicPool} {c : CountedBucket}
variable {a i j t u o p bytesCount alignment : Nat} {m : Machine}
variable {rest central : List Nat} {request : Request} {point : Point} {onward : Onward}
variable {_bucketsCount _bucketSizeInBytes : Nat}

namespace AtomicPool

/-! ## Steps in another bucket -/

namespace Reflects

theorem popping_aside (reflects : Reflects pool a s i c) (other : i ≠ j)
    (isBound : j < pool.bucketsCount) (data : (s.world.bucket a j).pData = pool.pData j)
    (block : forall headValue, point.remembered = some headValue ->
      pool.IsBlock j headValue.offset.toNat)
    (here : s.errand t = .popping request j point)
    (steps : PoolBucket.AllocSteps s.world.toMachine a j point onward m) :
    Reflects pool a ((s.become m).popped scheme t request j onward) i c := by
  have aside : (s.errand t).pointIn i = .idle := by
    rw [here]
    exact if_neg (fun same => other same.symm)
  have popping : forall point, (Errand.popping request j point).pointIn i = .idle :=
    fun _ => if_neg (fun same => other same.symm)
  cases steps with
  | null => exact reflects.goto_aside ((onMiss_pointIn _ _ _ _).trans aside.symm)
  | read => exact reflects.goto_aside ((popping _).trans aside.symm)
  | pop headValue nextValue same =>
      have nonzero : (s.world.bucket a j).pData + headValue.offset.toNat ≠ 0 := by
        rw [data]
        exact pool.block_ne_zero j _
      rw [popped_returns nonzero]
      have popped := reflects.setBucket_aside other { s.world.bucket a j with head := nextValue }
      have held : (pool.offsets (((s.world.bucket a j).pData + headValue.offset.toNat) :: s.held)
          i).Perm (pool.offsets s.held i) := by
        rw [data, elsewhere_cons isBound (block headValue rfl) other]
      exact (popped.setHeld_aside held).goto_aside aside.symm
  | reload => exact reflects.goto_aside ((popping _).trans aside.symm)

theorem pushing_aside (reflects : Reflects pool a s i c) (other : i ≠ j)
    (bound : i < pool.bucketsCount) (isBound : j < pool.bucketsCount)
    (represents : pool.Represents (s.world.allocs a))
    (blocks : forall o, o ∈ point.blocks -> pool.IsBlock j o)
    (here : s.errand t = .pushing j point)
    (steps : PoolBucket.FreeSteps s.world.toMachine a j point onward m) :
    Reflects pool a ((s.become m).pushed t j onward) i c := by
  have aside : (s.errand t).pointIn i = .idle := by
    rw [here]
    exact if_neg (fun same => other same.symm)
  have pushing : forall point, (Errand.pushing j point).pointIn i = .idle :=
    fun _ => if_neg (fun same => other same.symm)
  cases steps with
  | draw => exact (reflects.setBucket_aside other _).goto_aside ((pushing _).trans aside.symm)
  | load => exact reflects.goto_aside ((pushing _).trans aside.symm)
  | store chain nodeValue headValue =>
      have block := blocks _ chain.pTail_mem
      refine (reflects.setMem_beside bound (represents.pData i bound) other isBound block ?_
        ).goto_aside ((pushing _).trans aside.symm)
      intro x changed
      have data : (s.world.bucket a j).pData = pool.pData j := represents.pData j isBound
      have positive := Pool.element_pos isBound
      rw [data] at changed
      by_contra outside
      exact changed (TaggedIndex.store_outside (by omega))
  | push => exact (reflects.setBucket_aside other _).goto_aside aside.symm
  | retry => exact reflects.goto_aside ((pushing _).trans aside.symm)

end Reflects

/-! ## Steps and what is common -/

namespace Standing

theorem popping (standing : Standing pool a rest s) (within : request.Within pool i)
    (block : forall headValue, point.remembered = some headValue ->
      pool.IsBlock i headValue.offset.toNat)
    (steps : PoolBucket.AllocSteps s.world.toMachine a i point onward m) :
    Standing pool a rest ((s.become m).popped scheme t request i onward) := by
  have data : (s.world.bucket a i).pData = pool.pData i := standing.represents.pData i within.bound
  cases steps with
  | null => exact standing.goto t (onMiss_fine within)
  | read => exact standing.goto t ⟨within, trivial⟩
  | pop headValue nextValue same =>
      rw [data, popped_returns (pool.block_ne_zero i _)]
      have popped := standing.setBucket (i := i)
        (b := { s.world.bucket a i with head := nextValue }) rfl rfl
      exact (popped.take within.bound (block headValue rfl)).goto t trivial
  | reload => exact standing.goto t ⟨within, trivial⟩

theorem pushing (standing : Standing pool a rest s) (bound : i < pool.bucketsCount)
    (steps : PoolBucket.FreeSteps s.world.toMachine a i point onward m) :
    Standing pool a rest ((s.become m).pushed t i onward) := by
  cases steps with
  | draw =>
      have drawn := standing.setBucket (i := i) (b := { s.world.bucket a i with
        globalTag := (s.world.bucket a i).globalTag + 1 }) rfl rfl
      exact drawn.goto t ⟨bound, trivial⟩
  | load => exact standing.goto t ⟨bound, trivial⟩
  | store => exact (standing.setMem _).goto t ⟨bound, trivial⟩
  | push chain nodeValue =>
      have pushed := standing.setBucket (i := i)
        (b := { s.world.bucket a i with head := nodeValue }) rfl rfl
      exact pushed.goto t trivial
  | retry => exact standing.goto t ⟨bound, trivial⟩

end Standing

/-! ## The components -/

/-- Bucket `i` as a system of its own. -/
def part (pool : Pool scheme) (i : Nat) : Transition CountedBucket Move :=
  CountedBucket.system (pool.elementSize i) pool.bucketSizeInBytes

/-- What a step of the allocator is in bucket `i`. -/
def act (pool : Pool scheme) (i : Nat) (s : AtomicPool) : PoolMove -> Option Move
  | .alloc _ _ _ => none
  | .free t p =>
      if kMaxValidAlignment < p ∧ pool.findBucket p = i then some (.free t (p - pool.pData i))
      else none
  | .proceed t =>
      match s.errand t with
      | .round request bucketIndex =>
          if bucketIndex = i ∧ bucketIndex < request.maxBucketIndex then some (.alloc t) else none
      | .popping _ bucketIndex _ => if bucketIndex = i then some (.proceed t) else none
      | .pushing bucketIndex _ => if bucketIndex = i then some (.proceed t) else none
      | _ => none
  | .write p k v =>
      if pool.findBucket p = i then
        some (.write (p - pool.pData i) (TaggedIndex.load (s.world.mem.poke (p + k) v) p))
      else none

/-- Bucket `i` takes its part in a step that leads to `s'`. -/
structure Follows (pool : Pool scheme) (a i : Nat) (c : CountedBucket) (move : Option Move)
    (s' : AtomicPool) : Prop where
  admits : (part pool i).Admits c move
  reflects : Reflects pool a s' i ((part pool i).advance c move)

theorem Follows.still {s' : AtomicPool} (reflects : Reflects pool a s' i c) :
    Follows pool a i c none s' where
  admits := by
    intro own impossible
    cases impossible
  reflects := reflects

theorem Follows.moves {s' : AtomicPool} {own : Move} (allowed : (part pool i).allowed c own)
    (reflects : Reflects pool a s' i ((part pool i).next c own)) :
    Follows pool a i c (some own) s' where
  admits := by
    rintro _ ⟨⟩
    exact allowed
  reflects := reflects

/-- A bucket has tags left for the calls that have begun. -/
theorem few_calls (sound : CountedBucket.Sound (pool.elementSize i) pool.bucketSizeInBytes c central) :
    c.freeIntervalCalls + 0 < 2 ^ 32 - (pool.bucketSizeInBytes / pool.elementSize i - 1) := by
  have bound := sound.bound
  omega

/-- The configuration gives every bucket at least two blocks. -/
def Roomy (pool : Pool scheme) : Prop :=
  forall i, i < pool.bucketsCount -> 2 * pool.elementSize i ≤ pool.bucketSizeInBytes

theorem Roomy.cut (roomy : Roomy pool) (bound : i < pool.bucketsCount) :
    Cut (pool.elementSize i) pool.bucketSizeInBytes where
  element_min := Nat.le_trans (by decide) (Pool.element_pos bound)
  two_blocks := roomy i bound
  size_le := pool.size_le

/-- What is known of the buckets before a step. -/
structure Known (pool : Pool scheme) (a : Nat) (rest : List Nat) (s : AtomicPool)
    (inner : Fin pool.bucketsCount -> CountedBucket) : Prop where
  fits : Fits pool a rest s inner
  sound : forall i : Fin pool.bucketsCount, ∃ central,
    CountedBucket.Sound (pool.elementSize i) pool.bucketSizeInBytes (inner i) central
  located : forall (i : Fin pool.bucketsCount) t headValue,
    ((inner i).bucket.point t).remembered = some headValue ->
      pool.IsBlock i headValue.offset.toNat
  stackless : forall (i : Fin pool.bucketsCount) t, (inner i).bucket.pStorageL1 t = []

variable {inner : Fin pool.bucketsCount -> CountedBucket}

theorem Roomy.known (roomy : Roomy pool) (fits : Fits pool a rest s inner)
    (reachable : forall i : Fin pool.bucketsCount, (part pool i).Reachable (inner i)) :
    Known pool a rest s inner where
  fits := fits
  sound := fun i => CountedBucket.sound_of_reachable (roomy.cut i.isLt) (reachable i)
  located := fun i => CountedBucket.located (roomy.cut i.isLt) (reachable i)
  stackless := fun i => CountedBucket.stackless (reachable i)

namespace Known

theorem data (known : Known pool a rest s inner) (bound : i < pool.bucketsCount) :
    (s.world.bucket a i).pData = pool.pData i := known.fits.standing.represents.pData i bound

/-- The block that a client names lies in its bucket. -/
theorem block (known : Known pool a rest s inner) (member : p ∈ s.held)
    (inside : pool.findBucket p < pool.bucketsCount) :
    ∃ o, pool.IsBlock (pool.findBucket p) o ∧ p = pool.pData (pool.findBucket p) + o ∧
      o ∈ (inner ⟨_, inside⟩).bucket.held := by
  rcases known.sound ⟨_, inside⟩ with ⟨central, sound⟩
  have address := known.fits.standing.addresses p member
  exact (known.fits.parts ⟨_, inside⟩).block sound inside member address.2 rfl

/-! ### The moves -/

/-- A call of `Alloc` begins. -/
theorem alloc (known : Known pool a rest s inner) (idle : s.errand t = .idle)
    (bytesBound : bytesCount < 2 ^ 64) (valid : ValidAlignment alignment) :
    Standing pool a rest (s.beginAlloc scheme a t bytesCount alignment) ∧
      forall i : Fin pool.bucketsCount,
        Follows pool a i (inner i) none (s.beginAlloc scheme a t bytesCount alignment) := by
  unfold beginAlloc
  split
  · exact ⟨known.fits.standing, fun i => Follows.still (known.fits.parts i)⟩
  next nonempty =>
    refine ⟨known.fits.standing.goto t ⟨?_, Or.inl rfl⟩, fun i => Follows.still ?_⟩
    · refine ⟨Nat.pos_of_ne_zero nonempty, bytesBound, valid, ?_⟩
      rw [known.fits.standing.represents.bucketsCount]
      rfl
    · exact (known.fits.parts i).goto_aside (by rw [idle]; rfl)

/-- A call of `Free` for a block of the pool begins. -/
theorem freeBlock (known : Known pool a rest s inner) (idle : s.errand t = .idle)
    (member : p ∈ s.held) (inside : pool.findBucket p < pool.bucketsCount)
    (left : s.TagLeft scheme a (pool.findBucket p)) :
    Standing pool a rest (s.beginFree a t p) ∧ forall i : Fin pool.bucketsCount,
      Follows pool a i (inner i) (act pool i s (.free t p)) (s.beginFree a t p) := by
  rcases known.block member inside with ⟨o, block, address, holds⟩
  have standing := known.fits.standing
  have above := (standing.addresses p member).1
  obtain ⟨j, isBucket⟩ : ∃ j, j = pool.findBucket p := ⟨_, rfl⟩
  rw [← isBucket] at block address left
  have bound : j < pool.bucketsCount := isBucket ▸ inside
  have offset : sizeSub p (s.world.bucket a j).pData = o := by
    have positive := Pool.element_pos bound
    have fits := block.end_le bound
    rw [known.data bound, address, Pool.sizeSub_pData bound (by omega)]
  have opened : s.beginFree a t p = { s with
      held := s.held.erase p
      freeIntervalCalls := Function.update s.freeIntervalCalls j (s.freeIntervalCalls j + 1)
      }.goto t (.pushing j (.freeInterval ⟨o, []⟩)) := by
    simp only [beginFree, if_neg (not_unreadable above), standing.represents.findBucket,
      standing.represents.bucketsCount, ← isBucket, if_pos bound, offset]
  rw [opened]
  refine ⟨?_, fun i => ?_⟩
  · have given := standing.give bound block (address ▸ member)
    rw [← address] at given
    exact (given.count _).goto t ⟨bound, trivial⟩
  · have reflects := known.fits.parts i
    have perm : (pool.offsets s.held i).Perm (pool.offsets (p :: s.held.erase p) i) :=
      Pool.offsets_perm (List.perm_cons_erase member)
    by_cases here : (i : Nat) = j
    · have acts : act pool i s (.free t p) = some (.free t o) := by
        rw [act, if_pos ⟨above, isBucket.symm.trans here.symm⟩, here, address,
          Nat.add_sub_cancel_left]
      have sameBucket : (⟨pool.findBucket p, inside⟩ : Fin pool.bucketsCount) = i :=
        Fin.ext (isBucket.symm.trans here.symm)
      rw [sameBucket] at holds
      rw [acts]
      refine Follows.moves ⟨⟨?_, holds⟩, trivial, ?_⟩ ?_
      · rw [reflects.point t, idle]
        rfl
      · have tags := left
        unfold TagLeft at tags
        rw [standing.represents.bucketSizeInBytes, ← here] at tags
        rw [reflects.calls]
        exact tags
      · have erased : (pool.offsets (s.held.erase p) i).Perm ((inner i).bucket.held.erase o) := by
          rw [address, here, Pool.offsets_cons_block bound block, ← address, ← here] at perm
          have both := (perm.symm.trans reflects.held).trans (List.perm_cons_erase holds)
          exact both.cons_inv
        have next := ((reflects.setHeld erased).count (Function.update s.freeIntervalCalls j
          (s.freeIntervalCalls j + 1))).goto t (.pushing j (.freeInterval ⟨o, []⟩))
        rw [Errand.pointIn, if_pos here.symm] at next
        have calls : Function.update s.freeIntervalCalls j (s.freeIntervalCalls j + 1) i =
            (inner i).freeIntervalCalls + 1 := by
          rw [here, Function.update_self, reflects.calls, here]
        rw [calls] at next
        exact next
    · have acts : act pool i s (.free t p) = none := by
        rw [act, if_neg]
        exact fun both => here (both.2.symm.trans isBucket.symm)
      rw [acts]
      rw [address, elsewhere_cons bound block here, ← address] at perm
      have next := ((reflects.setHeld_aside perm.symm).count (Function.update s.freeIntervalCalls j
        (s.freeIntervalCalls j + 1)))
      rw [Function.update_of_ne here, ← reflects.calls] at next
      refine Follows.still (next.goto_aside ?_)
      change _ = (s.errand t).pointIn i
      rw [idle]
      exact if_neg (fun same => here same.symm)

/-- A call of `Free` for a block of the fallback heap. -/
theorem freeGeneric (known : Known pool a rest s inner) (member : p ∈ s.held)
    (outside : pool.bucketsCount ≤ pool.findBucket p) :
    Standing pool a rest (s.beginFree a t p) ∧ forall i : Fin pool.bucketsCount,
      Follows pool a i (inner i) (act pool i s (.free t p)) (s.beginFree a t p) := by
  have standing := known.fits.standing
  have above := (standing.addresses p member).1
  have opened : s.beginFree a t p = { s with held := s.held.erase p }.become
      { s.world.toMachine with heap := s.world.heap.free p } := by
    simp only [beginFree, if_neg (not_unreadable above), standing.represents.findBucket,
      standing.represents.bucketsCount, if_neg (Nat.not_lt_of_le outside)]
  rw [opened]
  refine ⟨standing.giveGeneric member outside, fun i => ?_⟩
  have notHere : pool.findBucket p ≠ i := fun same => by
    have bound := i.isLt
    omega
  have acts : act pool i s (.free t p) = none := by
    rw [act, if_neg]
    exact fun both => notHere both.2
  have perm : (pool.offsets s.held i).Perm (pool.offsets (p :: s.held.erase p) i) :=
    Pool.offsets_perm (List.perm_cons_erase member)
  rw [Pool.offsets_cons_of_ne notHere] at perm
  rw [acts]
  exact Follows.still (((known.fits.parts i).setHeld_aside perm.symm).setHeap _)

/-- The search of a call of `Allocate` goes on, or ends. -/
theorem round (known : Known pool a rest s inner) (here : s.errand t = .round request j) :
    Standing pool a rest (s.proceed scheme a t) ∧ forall i : Fin pool.bucketsCount,
      Follows pool a i (inner i) (act pool i s (.proceed t)) (s.proceed scheme a t) := by
  have standing := known.fits.standing
  have fine := standing.errands t
  rw [here] at fine
  rcases fine with ⟨fine, suitable⟩
  have aside : forall i, (s.errand t).pointIn i = .idle := by
    intro i
    rw [here]
    rfl
  by_cases inside : j < request.maxBucketIndex
  · have opened : s.proceed scheme a t =
        s.goto t (.popping request j (.allocLoaded (s.world.bucket a j).head)) := by
      simp only [proceed, here, if_pos inside]
    rw [opened]
    refine ⟨standing.goto t ⟨⟨fine, suitable, inside⟩, trivial⟩, fun i => ?_⟩
    have reflects := known.fits.parts i
    rcases known.sound i with ⟨central, sound⟩
    by_cases own : j = i
    · have acts : act pool i s (.proceed t) = some (.alloc t) := by
        simp only [act, here, if_pos (And.intro own inside)]
      have next := reflects.goto t (.popping request j (.allocLoaded (s.world.bucket a j).head))
      rw [Errand.pointIn, if_pos own, own] at next
      rw [acts, own]
      refine Follows.moves ⟨(reflects.point t).trans (aside i), trivial, few_calls sound⟩ ?_
      have head : (inner i).bucket.head = (s.world.bucket a i).head := reflects.shows.head
      rw [← head] at next ⊢
      exact next
    · have acts : act pool i s (.proceed t) = none := by
        simp only [act, here]
        exact if_neg (fun both => own both.1)
      rw [acts]
      exact Follows.still (reflects.goto_aside ((if_neg own).trans (aside i).symm))
  · have opened : s.proceed scheme a t = s.goto t (.generic request) := by
      simp only [proceed, here, if_neg inside]
    rw [opened]
    refine ⟨standing.goto t fine, fun i => ?_⟩
    have acts : act pool i s (.proceed t) = none := by
      simp only [act, here]
      exact if_neg (fun both => inside both.2)
    rw [acts]
    exact Follows.still ((known.fits.parts i).goto_aside (aside i).symm)

/-- A call of `Allocate` goes on in a bucket. -/
theorem popping (known : Known pool a rest s inner) (here : s.errand t = .popping request j point) :
    Standing pool a rest (s.proceed scheme a t) ∧ forall i : Fin pool.bucketsCount,
      Follows pool a i (inner i) (act pool i s (.proceed t)) (s.proceed scheme a t) := by
  have standing := known.fits.standing
  have fine := standing.errands t
  rw [here] at fine
  rcases fine with ⟨within, inAlloc⟩
  have opened : s.proceed scheme a t =
      (s.become (PoolBucket.allocStep s.world.toMachine a j point).2).popped scheme t request j
        (PoolBucket.allocStep s.world.toMachine a j point).1 := by
    simp only [proceed, here]
  have steps := PoolBucket.allocSteps s.world.toMachine a j inAlloc
  generalize PoolBucket.allocStep s.world.toMachine a j point = result at opened steps
  have bound := within.bound
  have block : forall headValue, point.remembered = some headValue ->
      pool.IsBlock j headValue.offset.toNat := by
    intro headValue seen
    refine known.located ⟨j, bound⟩ t headValue ?_
    rw [(known.fits.parts ⟨j, bound⟩).point t, here, Errand.pointIn, if_pos rfl]
    exact seen
  rw [opened]
  refine ⟨standing.popping within block steps, fun i => ?_⟩
  rcases known.sound i with ⟨central, sound⟩
  by_cases own : j = i
  · have acts : act pool i s (.proceed t) = some (.proceed t) := by
      simp only [act, here, if_pos own]
    rw [acts]
    refine Follows.moves ⟨trivial, trivial, few_calls sound⟩ ?_
    subst own
    exact (known.fits.parts i).popping i.isLt (known.data i.isLt) (known.located i) here steps
  · have acts : act pool i s (.proceed t) = none := by
      simp only [act, here, if_neg own]
    rw [acts]
    exact Follows.still ((known.fits.parts i).popping_aside (Ne.symm own) bound (known.data bound)
      block here steps)

/-- A call of `Free` goes on in its bucket. -/
theorem pushing (known : Known pool a rest s inner) (here : s.errand t = .pushing j point) :
    Standing pool a rest (s.proceed scheme a t) ∧ forall i : Fin pool.bucketsCount,
      Follows pool a i (inner i) (act pool i s (.proceed t)) (s.proceed scheme a t) := by
  have standing := known.fits.standing
  have fine := standing.errands t
  rw [here] at fine
  rcases fine with ⟨bound, inFree⟩
  have opened : s.proceed scheme a t =
      (s.become (PoolBucket.freeIntervalStep s.world.toMachine a j point).2).pushed t j
        (PoolBucket.freeIntervalStep s.world.toMachine a j point).1 := by
    simp only [proceed, here]
  have steps := PoolBucket.freeSteps s.world.toMachine a j inFree
  generalize PoolBucket.freeIntervalStep s.world.toMachine a j point = result at opened steps
  have blocks : forall o, o ∈ point.blocks -> pool.IsBlock j o := by
    intro o member
    rcases known.sound ⟨j, bound⟩ with ⟨central, sound⟩
    apply sound.owned.custody.supplied (.thread t)
    rw [AtomicBucket.kept_of_point _ _ ((known.fits.parts ⟨j, bound⟩).point t), here,
      Errand.pointIn, if_pos rfl]
    exact member
  rw [opened]
  refine ⟨standing.pushing bound steps, fun i => ?_⟩
  rcases known.sound i with ⟨central, sound⟩
  by_cases own : j = i
  · have acts : act pool i s (.proceed t) = some (.proceed t) := by
      simp only [act, here, if_pos own]
    rw [acts]
    refine Follows.moves ⟨trivial, trivial, few_calls sound⟩ ?_
    subst own
    exact (known.fits.parts i).pushing i.isLt (known.data i.isLt) sound here steps
  · have acts : act pool i s (.proceed t) = none := by
      simp only [act, here, if_neg own]
    rw [acts]
    exact Follows.still ((known.fits.parts i).pushing_aside (Ne.symm own) i.isLt bound
      standing.represents blocks here steps)

/-- A call of `Allocate` goes to the fallback heap. -/
theorem generic (known : Known pool a rest s inner) (here : s.errand t = .generic request) :
    Standing pool a rest (s.proceed scheme a t) ∧ forall i : Fin pool.bucketsCount,
      Follows pool a i (inner i) (act pool i s (.proceed t)) (s.proceed scheme a t) := by
  have standing := known.fits.standing
  have fine := standing.errands t
  rw [here] at fine
  have opened : s.proceed scheme a t = { s.become { s.world.toMachine with
        heap := (s.world.heap.alloc request.bytesCount request.alignment).2 } with
      held := if s.world.heap.answer request.bytesCount request.alignment = 0 then s.held
        else s.world.heap.answer request.bytesCount request.alignment :: s.held }.goto t .idle := by
    simp only [proceed, here]
    rfl
  rw [opened]
  refine ⟨(standing.ask fine.positive).goto t trivial, fun i => ?_⟩
  have acts : act pool i s (.proceed t) = none := by
    simp only [act, here]
  have aside : (s.errand t).pointIn i = .idle := by
    rw [here]
    rfl
  have same : (pool.offsets (if s.world.heap.answer request.bytesCount request.alignment = 0
      then s.held else s.world.heap.answer request.bytesCount request.alignment :: s.held) i).Perm
      (pool.offsets s.held i) := by
    split
    · exact List.Perm.refl _
    · have elsewhere : pool.bucketsCount ≤ pool.findBucket
          (s.world.heap.answer request.bytesCount request.alignment) :=
        standing.answer_elsewhere fine.positive
      have bound := i.isLt
      rw [Pool.offsets_cons_of_ne (by omega)]
  rw [acts]
  have asked := ((known.fits.parts i).setHeap
    (s.world.heap.alloc request.bytesCount request.alignment).2).setHeld_aside same
  exact Follows.still (asked.goto_aside (t := t) aside.symm)

end Known

/-- The region of a block on the fallback heap. -/
theorem Standing.region (standing : Standing pool a rest s) (member : p ∈ s.held)
    (elsewhere : pool.bucketsCount ≤ pool.findBucket p) :
    ∃ size, s.world.heap.getUsableSpace p = size ∧ ⟨p, size⟩ ∈ s.world.heap.live ∧
      Region.Apart ⟨p, size⟩ ⟨pool.base, pool.bucketsCount * pool.bucketSizeInBytes⟩ := by
  have inClient : p ∈ s.world.toMachine.heapShares pool rest s.held HeapHolder.client :=
    List.mem_filter.mpr ⟨member, decide_eq_true elsewhere⟩
  rcases List.mem_map.mp (standing.ledger.custody.supplied _ inClient) with ⟨r, live, rfl⟩
  refine ⟨r.size, GenericAllocator.getUsableSpace_of_live standing.ledger.apart live, live, ?_⟩
  have : Std.Symm Region.Apart := ⟨fun _ _ apart => apart.symm⟩
  apply standing.ledger.apart.forall live standing.buffer
  rintro rfl
  have inPool : pool.base ∈ s.world.toMachine.heapShares pool rest s.held HeapHolder.pool :=
    List.mem_singleton.mpr rfl
  cases standing.ledger.custody.holder_unique inPool inClient

/-- A client writes to a block that it holds. -/
theorem Known.write (known : Known pool a rest s inner) (member : p ∈ s.held) {k : Nat}
    (inside : k < Allocator.getUsableSize scheme s.world a p) (v : UInt8) :
    Standing pool a rest (s.step scheme a (.write p k v)) ∧ forall i : Fin pool.bucketsCount,
      Follows pool a i (inner i) (act pool i s (.write p k v)) (s.step scheme a (.write p k v)) := by
  have standing := known.fits.standing
  have address := standing.addresses p member
  have changed : forall x, s.world.mem.poke (p + k) v x ≠ s.world.mem x -> x = p + k := by
    intro x different
    by_contra other
    exact different (Memory.poke_outside other)
  refine ⟨standing.setMem _, fun i => ?_⟩
  have reflects := known.fits.parts i
  rcases known.sound i with ⟨central, sound⟩
  by_cases found : pool.findBucket p < pool.bucketsCount
  · rcases known.block member found with ⟨o, block, isAddress, holds⟩
    have usable := standing.represents.getUsableSize_block found block
    rw [← isAddress] at usable
    rw [usable] at inside
    have bytes : forall x, s.world.mem.poke (p + k) v x ≠ s.world.mem x ->
        pool.pData (pool.findBucket p) + o ≤ x ∧
          x < pool.pData (pool.findBucket p) + o + pool.elementSize (pool.findBucket p) := by
      intro x different
      rw [changed x different]
      omega
    by_cases own : pool.findBucket p = i
    · have acts : act pool i s (.write p k v) =
          some (.write o (TaggedIndex.load (s.world.mem.poke (p + k) v) p)) := by
        rw [own] at isAddress
        rw [act, if_pos own, isAddress, Nat.add_sub_cancel_left]
      have sameBucket : (⟨pool.findBucket p, found⟩ : Fin pool.bucketsCount) = i := Fin.ext own
      rw [sameBucket] at holds
      rw [own] at block isAddress bytes
      rw [acts]
      refine Follows.moves ⟨holds, trivial, few_calls sound⟩ ?_
      have next := reflects.setMem i.isLt (known.data i.isLt) block bytes
      rw [← isAddress] at next
      exact next
    · have acts : act pool i s (.write p k v) = none := by
        rw [act, if_neg own]
      rw [acts]
      exact Follows.still (reflects.setMem_beside i.isLt (known.data i.isLt) (Ne.symm own) found
        block bytes)
  · have elsewhere := Nat.le_of_not_lt found
    have notHere : pool.findBucket p ≠ i := fun same => by
      have bound := i.isLt
      omega
    have acts : act pool i s (.write p k v) = none := by
      rw [act, if_neg notHere]
    rw [acts]
    rcases standing.region member elsewhere with ⟨size, usable, -, apart⟩
    rw [standing.represents.getUsableSize_elsewhere address.1 elsewhere, usable] at inside
    refine Follows.still (reflects.setMem_aside i.isLt (known.data i.isLt) ?_)
    rintro x o block different ⟨low, high⟩
    rw [changed x different] at low high
    have fits := block.end_le i.isLt
    have below := pool.base_le_pData i
    have top := Pool.bucket_end_le i.isLt
    unfold Region.Apart at apart
    simp only at apart
    omega

/-- The buckets are components of the allocator. -/
theorem components (roomy : Roomy pool) (_bucketsCount _bucketSizeInBytes : Nat) :
    Transition.Components (system scheme a _bucketsCount _bucketSizeInBytes)
      (fun i : Fin pool.bucketsCount => part pool i) (Fits pool a rest)
      (fun i => act pool i) := by
  intro s inner move reachable fits allowed
  have known := roomy.known fits reachable
  have moved : Standing pool a rest (s.step scheme a move) ∧ forall i : Fin pool.bucketsCount,
      Follows pool a i (inner i) (act pool i s move) (s.step scheme a move) := by
    cases move with
    | alloc t bytesCount alignment => exact known.alloc allowed.1 allowed.2.1 allowed.2.2
    | free t p =>
        rcases allowed with ⟨idle, small | member, left⟩
        · have ignored : s.step scheme a (.free t p) = s := if_pos (isReadable_of_le small)
          rw [ignored]
          refine ⟨fits.standing, fun i => ?_⟩
          have acts : act pool i s (.free t p) = none := by
            rw [act, if_neg]
            exact fun both => absurd both.1 (Nat.not_lt_of_le small)
          rw [acts]
          exact Follows.still (fits.parts i)
        · rw [fits.standing.represents.findBucket, fits.standing.represents.bucketsCount] at left
          by_cases inside : pool.findBucket p < pool.bucketsCount
          · exact known.freeBlock idle member inside (left inside)
          · exact known.freeGeneric member (Nat.le_of_not_lt inside)
    | proceed t =>
        cases here : s.errand t with
        | idle =>
            have still : s.step scheme a (.proceed t) = s := by
              simp only [step, proceed, here]
            rw [still]
            refine ⟨fits.standing, fun i => ?_⟩
            have acts : act pool i s (.proceed t) = none := by
              simp only [act, here]
            rw [acts]
            exact Follows.still (fits.parts i)
        | round request j => exact known.round here
        | popping request j point => exact known.popping here
        | generic request => exact known.generic here
        | pushing j point => exact known.pushing here
    | write p k v => exact known.write allowed.1 allowed.2 v
  exact ⟨fun i => (moved.2 i).admits, moved.1, fun i => (moved.2 i).reflects⟩

/-! ## Where the runs begin -/

/-- Every bucket of the configuration has at least two blocks. -/
def TwoBlocks (scheme : Partitioning) (_bucketsCount _bucketSizeInBytes : Nat) : Prop :=
  forall i, i < min _bucketsCount maxBucketCount ->
    2 * scheme.getBucketSizeInBytesByIndex i ≤ align _bucketSizeInBytes kMaxValidAlignment

theorem TwoBlocks.roomy {base : Nat} (twoBlocks : TwoBlocks scheme _bucketsCount _bucketSizeInBytes)
    (layout : pool.LaidOut _bucketsCount _bucketSizeInBytes base) : Roomy pool := by
  intro i bound
  rw [layout.bucketsCount] at bound
  rw [layout.bucketSizeInBytes]
  exact twoBlocks i bound

/-- Bucket `i` as `Init` leaves it, with nobody at work. -/
def createdPart (pool : Pool scheme) (a i : Nat) (s : AtomicPool) : CountedBucket :=
  ⟨AtomicBucket.ofBucket (PoolBucket.create s.world.toMachine a i (pool.elementSize i)) a i, 0⟩

/-- A bucket that `Init` has laid out looks as if `Create` had just been called. -/
theorem reflects_created (bound : i < pool.bucketsCount)
    (represents : pool.Represents (s.world.allocs a))
    (laid : LaidBucket scheme s.world.toMachine a i) (held : s.held = [])
    (idle : forall t, s.errand t = .idle) (calls : s.freeIntervalCalls i = 0) :
    Reflects pool a s i (createdPart pool a i s) := by
  have data : (s.world.bucket a i).pData = pool.pData i := represents.pData i bound
  have ends : (s.world.bucket a i).pBufferEnd = pool.pData i + pool.bucketSizeInBytes :=
    represents.bufferEnd i bound
  have positive := Pool.element_pos bound
  have element : pool.elementSize i ≤ pool.bucketSizeInBytes := pool.element_le i bound
  rcases create_spec (m := s.world.toMachine) (a := a) (i := i)
    (show 8 ≤ pool.elementSize i by omega) (by omega) with ⟨created, sameData, sameEnd, -⟩
  refine ⟨⟨?_, ?_, ?_⟩, ?_, ?_, ?_⟩
  · exact created.head.trans laid.created.head.symm
  · have tags := created.globalTag
    rw [sameData, sameEnd] at tags
    exact tags.trans laid.created.globalTag.symm
  · rintro _ ⟨k, inside, rfl⟩
    have links := created.links
    have old := laid.created.links
    rw [sameData, sameEnd] at links
    rw [data, ends, Nat.add_sub_cancel_left] at links old
    have counted : k < createdCount (pool.elementSize i) pool.bucketSizeInBytes :=
      Nat.lt_of_lt_of_le inside (Nat.le_max_right _ _)
    rw [data]
    change linksAt _ ((PoolBucket.create s.world.toMachine a i
      (pool.elementSize i)).bucket a i).pData _ = _
    rw [sameData, data]
    exact (links k counted).trans (old k counted).symm
  · rw [held]
    exact List.Perm.refl _
  · intro t
    rw [idle t]
    rfl
  · exact calls.symm

theorem createdPart_start (bound : i < pool.bucketsCount)
    (represents : pool.Represents (s.world.allocs a)) :
    (part pool i).start (createdPart pool a i s) := by
  refine ⟨⟨s.world.toMachine, a, i, ?_, rfl⟩, rfl⟩
  have data : (s.world.bucket a i).pData = pool.pData i := represents.pData i bound
  have ends : (s.world.bucket a i).pBufferEnd = pool.pData i + pool.bucketSizeInBytes :=
    represents.bufferEnd i bound
  rw [data, ends]

/-- `Init` of a well-formed configuration leaves its buckets as `Create` does. -/
theorem Start.fits (wellFormed : WellFormed scheme _bucketsCount _bucketSizeInBytes)
    (sized : scheme.Sized) (start : Start scheme a _bucketsCount _bucketSizeInBytes first) :
    ∃ (pool : Pool scheme) (rest : List Nat),
      pool.LaidOut _bucketsCount _bucketSizeInBytes (first.world.allocs a).pBuffer ∧
      (forall i : Fin pool.bucketsCount, (part pool i).start (createdPart pool a i first)) ∧
      Fits pool a rest first (fun i => createdPart pool a i first) := by
  rcases start with ⟨w, fresh, served, rfl⟩
  rcases wellFormed.sound sized fresh served with ⟨pool, layout, sound⟩
  have empty : (w.allocs a).bucketsCount = 0 := by
    rw [fresh.constructed]
    rfl
  have init := init_spec (a := a) (w := w) scheme wellFormed.arguments empty
  have represents := sound.inv.represents
  refine ⟨pool, w.heap.live.map Region.base, ?_, fun i => createdPart_start i.isLt represents, ?_,
    fun i => ?_⟩
  · exact ⟨layout.bucketsCount, layout.bucketSizeInBytes, represents.pBuffer.symm⟩
  · exact ⟨represents, sound.inv.buffer, sound.ledger, sound.addresses, fun _ => trivial⟩
  · have bound : (i : Nat) < min _bucketsCount maxBucketCount :=
      Nat.lt_of_lt_of_eq i.isLt layout.bucketsCount
    exact reflects_created i.isLt represents (init.buckets i bound) rfl (fun _ => rfl) rfl

/-- Every reachable state has buckets that have been reached by steps of their own. -/
theorem reachable_fits (wellFormed : WellFormed scheme _bucketsCount _bucketSizeInBytes)
    (sized : scheme.Sized) (twoBlocks : TwoBlocks scheme _bucketsCount _bucketSizeInBytes)
    (reachable : (system scheme a _bucketsCount _bucketSizeInBytes).Reachable s) :
    ∃ (pool : Pool scheme) (rest : List Nat) (inner : Fin pool.bucketsCount -> CountedBucket),
      Roomy pool ∧ pool.LaidOut _bucketsCount _bucketSizeInBytes pool.base ∧
      (forall i : Fin pool.bucketsCount, (part pool i).Reachable (inner i)) ∧
      Fits pool a rest s inner := by
  rcases reachable.has_run with ⟨first, moves, start, permitted, rfl⟩
  rcases Start.fits wellFormed sized start with ⟨pool, rest, layout, starts, fits⟩
  have roomy := twoBlocks.roomy layout
  rcases (components roomy _bucketsCount _bucketSizeInBytes).after
    (fun i => Transition.Reachable.start (starts i)) fits permitted with ⟨inner, reached, last⟩
  exact ⟨pool, rest, inner, roomy, ⟨layout.bucketsCount, layout.bucketSizeInBytes, rfl⟩, reached,
    last⟩

end AtomicPool

end SmMalloc
