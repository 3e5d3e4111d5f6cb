import SmMalloc.Foundation.Component
import SmMalloc.Atomic.Pool

namespace SmMalloc

open Foundation

/-!
# The buckets inside the allocator

Seen through one bucket, a step of the allocator is a step of that bucket or no
step at all: `Reflects` says which state of a bucket of its own the bucket
inside the allocator is in.  What holds the buckets together, the memory that
they share, the clients and the fallback heap, is in `Standing`.

So every run of the allocator is, in each bucket, a run of an atomic stack.
-/

variable {scheme : Partitioning} {pool : Pool scheme} {s : AtomicPool} {c : CountedBucket}
variable {a i j t u o p bytesCount alignment elementSize size : Nat} {m : Machine}
variable {rest held central : List Nat} {request : Request} {point : Point} {onward : Onward}

/-! ## What a bucket knows of its calls -/

namespace CountedBucket

/-- The head is the offset of a block, unless the list is empty. -/
theorem Sound.head_isBlock (sound : Sound elementSize size c central)
    (running : c.bucket.head ≠ TaggedIndex.invalid) :
    AtomicBucket.IsBlock elementSize size c.bucket.head.offset.toNat := by
  rcases sound.owned.linked.uncons running with ⟨others, list, -⟩
  apply sound.owned.custody.supplied .central
  change _ ∈ central
  rw [list]
  exact List.mem_cons_self

/-- What a call of `Alloc` remembers is a block, even if it is out of date. -/
theorem located (cut : Cut elementSize size) (reachable : (system elementSize size).Reachable c) :
    forall t headValue, (c.bucket.point t).remembered = some headValue ->
      AtomicBucket.IsBlock elementSize size headValue.offset.toNat := by
  apply reachable.invariant
  · rintro first ⟨start, -⟩ t headValue seen
    rw [(AtomicBucket.Start.initial start cut.fits).point t] at seen
    cases seen
  · rintro before move earlier known ⟨-, uncached, -⟩ t headValue seen
    rcases sound_of_reachable cut earlier with ⟨central, sound⟩
    have loaded : (Point.allocLoaded before.bucket.head).remembered = some headValue ->
        AtomicBucket.IsBlock elementSize size headValue.offset.toNat := by
      intro isHead
      by_cases empty : before.bucket.head = TaggedIndex.invalid
      · simp only [Point.remembered, if_pos empty] at isHead
        cases isHead
      · simp only [Point.remembered, if_neg empty] at isHead
        cases isHead
        exact sound.head_isBlock empty
    change ((before.bucket.step move).point t).remembered = some headValue at seen
    by_cases own : move.thread = some t
    · cases move with
      | alloc u =>
          injection own with same
          subst same
          rw [AtomicBucket.step, AtomicBucket.goto_point] at seen
          exact loaded seen
      | free u o =>
          injection own with same
          subst same
          rw [AtomicBucket.step, AtomicBucket.goto_point] at seen
          cases seen
      | releaseToCache u o => exact absurd uncached id
      | allocFromCache u => exact absurd uncached id
      | returnL1CacheToMaster u count => exact absurd uncached id
      | write o value => cases own
      | proceed u =>
          injection own with same
          subst same
          have moved := before.bucket.proceeds central u
          rw [AtomicBucket.step] at seen
          generalize before.bucket.proceed u = next at moved seen
          generalize before.bucket.after central (.proceed u) = central' at moved
          cases moved with
          | idle => exact known u headValue seen
          | read value here running =>
              rw [AtomicBucket.goto_point] at seen
              cases seen
              apply known u headValue
              rw [here, Point.remembered, if_neg running]
          | reload value nextValue here other =>
              rw [AtomicBucket.goto_point] at seen
              exact loaded seen
          | null => rw [AtomicBucket.goto_point] at seen; cases seen
          | pop => rw [AtomicBucket.goto_point] at seen; cases seen
          | linked => rw [AtomicBucket.goto_point] at seen; cases seen
          | link => rw [AtomicBucket.goto_point] at seen; cases seen
          | draw => rw [AtomicBucket.goto_point] at seen; cases seen
          | load => rw [AtomicBucket.goto_point] at seen; cases seen
          | store => rw [AtomicBucket.goto_point] at seen; cases seen
          | push => rw [AtomicBucket.goto_point] at seen; cases seen
          | retry => rw [AtomicBucket.goto_point] at seen; cases seen
    · rw [AtomicBucket.step_point_of_ne own] at seen
      exact known t headValue seen

/-- Threads without a cache keep no blocks back. -/
theorem stackless (reachable : (system elementSize size).Reachable c) :
    forall t, c.bucket.pStorageL1 t = [] := by
  apply reachable.invariant
  · rintro first ⟨⟨m, a, i, -, begins⟩, -⟩ t
    rw [begins]
    rfl
  · rintro before move - none ⟨-, uncached, -⟩ t
    change (before.bucket.step move).pStorageL1 t = []
    cases move with
    | alloc u => exact none t
    | free u o => exact none t
    | releaseToCache u o => exact absurd uncached id
    | allocFromCache u => exact absurd uncached id
    | returnL1CacheToMaster u count => exact absurd uncached id
    | write o value => exact none t
    | proceed u =>
        have moved := before.bucket.proceeds [] u
        rw [AtomicBucket.step]
        generalize before.bucket.proceed u = next at moved
        generalize before.bucket.after [] (.proceed u) = central at moved
        cases moved <;> exact none t

end CountedBucket

/-! ## What a thread knows of its call -/

/-- The size class of the request. -/
def Request.index (scheme : Partitioning) (request : Request) : Nat :=
  requestIndex scheme request.bytesCount request.alignment

/-- A request as `Allocate` has worked it out. -/
structure Request.Fine (pool : Pool scheme) (request : Request) : Prop where
  positive : 0 < request.bytesCount
  bytesBound : request.bytesCount < 2 ^ 64
  valid : ValidAlignment request.alignment
  maxBucketIndex : request.maxBucketIndex =
    min pool.bucketsCount ((request.index scheme + 4) % 2 ^ 64)

/-- A bucket that serves the request, within the reach of its search. -/
structure Request.Within (pool : Pool scheme) (request : Request) (i : Nat) : Prop where
  fine : request.Fine pool
  suitable : Suitable scheme request.alignment (request.index scheme) i
  inside : i < request.maxBucketIndex

theorem Request.Within.bound (within : request.Within pool i) : i < pool.bucketsCount := by
  have inside := within.inside
  rw [within.fine.maxBucketIndex] at inside
  exact Nat.lt_of_lt_of_le inside (Nat.min_le_left _ _)

/-- What holds of the local variables of a call. -/
def Errand.Fine (pool : Pool scheme) : Errand -> Prop
  | .idle => True
  | .round request i =>
      request.Fine pool ∧ Suitable scheme request.alignment (request.index scheme) i
  | .popping request i point => request.Within pool i ∧ point.InAlloc
  | .generic request => request.Fine pool
  | .pushing i point => i < pool.bucketsCount ∧ point.InFree

namespace AtomicPool

/-- The search goes on in a suitable bucket, if at all. -/
theorem onMiss_fine (within : request.Within pool i) : (onMiss scheme request i).Fine pool := by
  cases found : Allocator.nextAligned scheme request.alignment Allocator.alignedSearchSteps i with
  | none =>
      rw [onMiss, found]
      exact within.fine
  | some next =>
      rw [onMiss, found]
      rcases nextAligned_some within.fine.valid _ i found with ⟨above, aligned⟩
      refine ⟨within.fine, Or.inr ⟨?_, aligned⟩⟩
      rcases within.suitable with same | ⟨higher, -⟩
      · rw [← same]
        exact above
      · exact Nat.lt_trans higher above

theorem onMiss_pointIn (scheme : Partitioning) (request : Request) (i j : Nat) :
    (onMiss scheme request i).pointIn j = .idle := by
  unfold onMiss
  split <;> rfl

theorem popped_returns (nonzero : p ≠ 0) : s.popped scheme t request i (.returns p) =
    { s with held := p :: s.held }.goto t .idle := if_pos nonzero

/-- What the buckets have in common. -/
structure Standing (pool : Pool scheme) (a : Nat) (rest : List Nat) (s : AtomicPool) : Prop where
  represents : pool.Represents (s.world.allocs a)
  buffer : ⟨pool.base, pool.bucketsCount * pool.bucketSizeInBytes⟩ ∈ s.world.heap.live
  ledger : Ledger pool rest s.world.toMachine s.held
  addresses : forall p, p ∈ s.held -> kMaxValidAlignment < p ∧ p < 2 ^ 64
  errands : forall t, (s.errand t).Fine pool

/-- Bucket `i` of the allocator is in the state `c`. -/
structure Reflects (pool : Pool scheme) (a : Nat) (s : AtomicPool) (i : Nat) (c : CountedBucket) :
    Prop where
  shows : AtomicBucket.Shows (pool.elementSize i) pool.bucketSizeInBytes c.bucket
    s.world.toMachine a i
  held : (pool.offsets s.held i).Perm c.bucket.held
  point : forall t, c.bucket.point t = (s.errand t).pointIn i
  calls : c.freeIntervalCalls = s.freeIntervalCalls i

/-- All buckets, and what they have in common. -/
structure Fits (pool : Pool scheme) (a : Nat) (rest : List Nat) (s : AtomicPool)
    (inner : Fin pool.bucketsCount -> CountedBucket) : Prop where
  standing : Standing pool a rest s
  parts : forall i : Fin pool.bucketsCount, Reflects pool a s i (inner i)

/-! ## Changes of what is common -/

namespace Standing

theorem goto (standing : Standing pool a rest s) (t : Nat) {errand : Errand}
    (fine : errand.Fine pool) : Standing pool a rest (s.goto t errand) where
  represents := standing.represents
  buffer := standing.buffer
  ledger := standing.ledger
  addresses := standing.addresses
  errands := by
    intro u
    change (Function.update s.errand t errand u).Fine pool
    by_cases here : u = t
    · rw [here, Function.update_self]
      exact fine
    · rw [Function.update_of_ne here]
      exact standing.errands u

theorem setBucket (standing : Standing pool a rest s) {b : PoolBucket}
    (sameData : b.pData = (s.world.bucket a i).pData)
    (sameEnd : b.pBufferEnd = (s.world.bucket a i).pBufferEnd) :
    Standing pool a rest (s.become (s.world.toMachine.setBucket a i b)) where
  represents := Pool.Represents.setBucket standing.represents sameData sameEnd
  buffer := standing.buffer
  ledger := standing.ledger.congr rfl (fun _ _ => TlsPoolBucket.SameStack.refl _) rfl
  addresses := standing.addresses
  errands := standing.errands

theorem setMem (standing : Standing pool a rest s) (mem : Memory) :
    Standing pool a rest (s.become { s.world.toMachine with mem := mem }) where
  represents := standing.represents
  buffer := standing.buffer
  ledger := standing.ledger.congr rfl (fun _ _ => TlsPoolBucket.SameStack.refl _) rfl
  addresses := standing.addresses
  errands := standing.errands

/-- A client gets a block of the pool. -/
theorem take (standing : Standing pool a rest s) (bound : i < pool.bucketsCount)
    (block : pool.IsBlock i o) :
    Standing pool a rest { s with held := (pool.pData i + o) :: s.held } where
  represents := standing.represents
  buffer := standing.buffer
  ledger := standing.ledger.congr rfl (fun _ _ => TlsPoolBucket.SameStack.refl _)
    (Sound.elsewhere_cons_block bound block)
  addresses := by
    intro p member
    rcases List.mem_cons.mp member with rfl | old
    · exact Sound.block_address bound block
    · exact standing.addresses p old
  errands := standing.errands

/-- A client gives a block of the pool back. -/
theorem give (standing : Standing pool a rest s) (bound : i < pool.bucketsCount)
    (block : pool.IsBlock i o) (member : pool.pData i + o ∈ s.held) :
    Standing pool a rest { s with held := s.held.erase (pool.pData i + o) } where
  represents := standing.represents
  buffer := standing.buffer
  ledger := by
    have split := standing.ledger.perm (List.perm_cons_erase member).symm
    exact split.congr rfl (fun _ _ => TlsPoolBucket.SameStack.refl _)
      (Sound.elsewhere_cons_block bound block).symm
  addresses := fun q inside => standing.addresses q (List.mem_of_mem_erase inside)
  errands := standing.errands

/-- A client gives a block of the fallback heap back. -/
theorem giveGeneric (standing : Standing pool a rest s) (member : p ∈ s.held)
    (elsewhere : pool.bucketsCount ≤ pool.findBucket p) :
    Standing pool a rest ({ s with held := s.held.erase p }.become
      { s.world.toMachine with heap := s.world.heap.free p }) where
  represents := standing.represents
  buffer := by
    apply GenericAllocator.mem_free standing.buffer
    rintro (rfl : pool.base = p)
    have inside : HeapHolder.pool = HeapHolder.client :=
      standing.ledger.custody.holder_unique (List.mem_singleton.mpr rfl)
        (List.mem_filter.mpr ⟨member, decide_eq_true elsewhere⟩)
    cases inside
  ledger := by
    have split := standing.ledger.perm (List.perm_cons_erase member).symm
    have nonzero : p ≠ 0 := by
      have readable := (standing.addresses p member).1
      omega
    exact split.release_client nonzero elsewhere
  addresses := fun q inside => standing.addresses q (List.mem_of_mem_erase inside)
  errands := standing.errands

theorem count (standing : Standing pool a rest s) (calls : Nat -> Nat) :
    Standing pool a rest { s with freeIntervalCalls := calls } :=
  ⟨standing.represents, standing.buffer, standing.ledger, standing.addresses, standing.errands⟩

/-- The fallback heap never answers with an address in the pool. -/
theorem answer_elsewhere (standing : Standing pool a rest s) (positive : 0 < bytesCount) :
    pool.bucketsCount ≤ pool.findBucket (s.world.heap.answer bytesCount alignment) := by
  have readable := pool.base_readable
  apply Pool.count_le_findBucket
  · by_cases answered : s.world.heap.answer bytesCount alignment = 0
    · omega
    · have addressable := (GenericAllocator.serves_of_answer answered).2.1
      omega
  · by_cases answered : s.world.heap.answer bytesCount alignment = 0
    · left
      omega
    · have apart := (GenericAllocator.serves_of_answer answered).2.2.2.2 _ standing.buffer
      unfold Region.Apart at apart
      simp only at apart
      omega

/-- The fallback heap is asked. -/
theorem ask (standing : Standing pool a rest s) (positive : 0 < bytesCount) :
    Standing pool a rest { s.become { s.world.toMachine with
        heap := (s.world.heap.alloc bytesCount alignment).2 } with
      held := if s.world.heap.answer bytesCount alignment = 0 then s.held
        else s.world.heap.answer bytesCount alignment :: s.held } := by
  have buffer : ⟨pool.base, pool.bucketsCount * pool.bucketSizeInBytes⟩ ∈
      (s.world.heap.alloc bytesCount alignment).2.live := GenericAllocator.mem_alloc standing.buffer
  by_cases refused : s.world.heap.answer bytesCount alignment = 0
  · rw [if_pos refused]
    exact ⟨standing.represents, buffer, standing.ledger.refused refused, standing.addresses,
      standing.errands⟩
  · rw [if_neg refused]
    have serves := GenericAllocator.serves_of_answer refused
    refine ⟨standing.represents, buffer,
      standing.ledger.acquire_client refused (standing.answer_elsewhere positive), ?_,
      standing.errands⟩
    intro p member
    rcases List.mem_cons.mp member with rfl | old
    · have addressable := serves.2.1
      exact ⟨serves.1, by omega⟩
    · exact standing.addresses p old

end Standing

/-! ## Changes seen through one bucket -/

namespace Reflects

/-- A thread goes on in this bucket. -/
theorem goto (reflects : Reflects pool a s i c) (t : Nat) (errand : Errand) :
    Reflects pool a (s.goto t errand) i
      ⟨c.bucket.goto t (errand.pointIn i), c.freeIntervalCalls⟩ where
  shows := ⟨reflects.shows.head, reflects.shows.globalTag, reflects.shows.link⟩
  held := reflects.held
  point := by
    intro u
    change Function.update c.bucket.point t (errand.pointIn i) u =
      (Function.update s.errand t errand u).pointIn i
    by_cases here : u = t
    · rw [here, Function.update_self, Function.update_self]
    · rw [Function.update_of_ne here, Function.update_of_ne here]
      exact reflects.point u
  calls := reflects.calls

/-- A thread goes on elsewhere. -/
theorem goto_aside (reflects : Reflects pool a s i c) {errand : Errand}
    (same : errand.pointIn i = (s.errand t).pointIn i) :
    Reflects pool a (s.goto t errand) i c where
  shows := reflects.shows
  held := reflects.held
  point := by
    intro u
    change c.bucket.point u = (Function.update s.errand t errand u).pointIn i
    by_cases here : u = t
    · rw [here, Function.update_self, same]
      exact reflects.point t
    · rw [Function.update_of_ne here]
      exact reflects.point u
  calls := reflects.calls

theorem setBucket (reflects : Reflects pool a s i c) {b : PoolBucket}
    (sameData : b.pData = (s.world.bucket a i).pData) :
    Reflects pool a (s.become (s.world.toMachine.setBucket a i b)) i
      ⟨{ c.bucket with head := b.head, globalTag := b.globalTag }, c.freeIntervalCalls⟩ where
  shows := by
    have same : ((s.become (s.world.toMachine.setBucket a i b)).world.toMachine.bucket a i) = b :=
      Machine.setBucket_bucket_same _ _ _ _
    refine ⟨?_, ?_, ?_⟩
    · rw [same]
    · rw [same]
    · rw [same, sameData]
      exact reflects.shows.link
  held := reflects.held
  point := reflects.point
  calls := reflects.calls

theorem setBucket_aside (reflects : Reflects pool a s i c) (other : i ≠ j) (b : PoolBucket) :
    Reflects pool a (s.become (s.world.toMachine.setBucket a j b)) i c where
  shows := by
    have same : ((s.become (s.world.toMachine.setBucket a j b)).world.toMachine.bucket a i) =
        s.world.bucket a i := Machine.setBucket_bucket_of_ne _ _ _ _ (fun equal => other equal.2)
    refine ⟨?_, ?_, ?_⟩
    · rw [same]
      exact reflects.shows.head
    · rw [same]
      exact reflects.shows.globalTag
    · rw [same]
      exact reflects.shows.link
  held := reflects.held
  point := reflects.point
  calls := reflects.calls

/-- Bytes of one block of this bucket change. -/
theorem setMem (reflects : Reflects pool a s i c) (bound : i < pool.bucketsCount)
    (data : (s.world.bucket a i).pData = pool.pData i) (block : pool.IsBlock i o) {mem : Memory}
    (inside : forall x, mem x ≠ s.world.mem x -> pool.pData i + o ≤ x ∧
      x < pool.pData i + o + pool.elementSize i) :
    Reflects pool a (s.become { s.world.toMachine with mem := mem }) i
      ⟨{ c.bucket with
          link := Function.update c.bucket.link o (TaggedIndex.load mem (pool.pData i + o)) },
        c.freeIntervalCalls⟩ where
  shows := by
    refine ⟨reflects.shows.head, reflects.shows.globalTag, ?_⟩
    intro o' block'
    change Function.update c.bucket.link o (TaggedIndex.load mem (pool.pData i + o)) o' =
      TaggedIndex.load mem ((s.world.bucket a i).pData + o')
    by_cases same : o' = o
    · rw [same, Function.update_self, data]
    · rw [Function.update_of_ne same, reflects.shows.link o' block', data]
      refine (TaggedIndex.load_congr (fun k small => ?_)).symm
      by_contra changed
      have positive := Pool.element_pos bound
      have apart : o' + pool.elementSize i ≤ o ∨ o + pool.elementSize i ≤ o' :=
        Pool.IsBlock.apart block' block same
      have bytes := inside _ changed
      omega
  held := reflects.held
  point := reflects.point
  calls := reflects.calls

/-- No byte of a block of this bucket changes. -/
theorem setMem_aside (reflects : Reflects pool a s i c) (bound : i < pool.bucketsCount)
    (data : (s.world.bucket a i).pData = pool.pData i) {mem : Memory}
    (outside : forall x o, pool.IsBlock i o -> mem x ≠ s.world.mem x ->
      ¬ (pool.pData i + o ≤ x ∧ x < pool.pData i + o + pool.elementSize i)) :
    Reflects pool a (s.become { s.world.toMachine with mem := mem }) i c where
  shows := by
    refine ⟨reflects.shows.head, reflects.shows.globalTag, ?_⟩
    intro o block
    change c.bucket.link o = TaggedIndex.load mem ((s.world.bucket a i).pData + o)
    rw [reflects.shows.link o block, data]
    refine (TaggedIndex.load_congr (fun k small => ?_)).symm
    by_contra changed
    have positive := Pool.element_pos bound
    exact outside _ o block changed ⟨Nat.le_add_right _ _, by omega⟩
  held := reflects.held
  point := reflects.point
  calls := reflects.calls

/-- Bytes of one block of another bucket change. -/
theorem setMem_beside (reflects : Reflects pool a s i c) (bound : i < pool.bucketsCount)
    (data : (s.world.bucket a i).pData = pool.pData i) (other : i ≠ j)
    (isBound : j < pool.bucketsCount) (block : pool.IsBlock j o) {mem : Memory}
    (inside : forall x, mem x ≠ s.world.mem x -> pool.pData j + o ≤ x ∧
      x < pool.pData j + o + pool.elementSize j) :
    Reflects pool a (s.become { s.world.toMachine with mem := mem }) i c := by
  apply reflects.setMem_aside bound data
  rintro x o' block' changed ⟨low, high⟩
  have bytes := inside x changed
  exact other (block.byte_unique isBound bytes.1 bytes.2 block' bound low high).1

theorem setHeap (reflects : Reflects pool a s i c) (heap : GenericAllocator) :
    Reflects pool a (s.become { s.world.toMachine with heap := heap }) i c :=
  ⟨⟨reflects.shows.head, reflects.shows.globalTag, reflects.shows.link⟩, reflects.held,
    reflects.point, reflects.calls⟩

theorem setHeld (reflects : Reflects pool a s i c) {held inBucket : List Nat}
    (perm : (pool.offsets held i).Perm inBucket) :
    Reflects pool a { s with held := held } i
      ⟨{ c.bucket with held := inBucket }, c.freeIntervalCalls⟩ :=
  ⟨⟨reflects.shows.head, reflects.shows.globalTag, reflects.shows.link⟩, perm, reflects.point,
    reflects.calls⟩

/-- The clients hold the same blocks of this bucket. -/
theorem setHeld_aside (reflects : Reflects pool a s i c) {held : List Nat}
    (perm : (pool.offsets held i).Perm (pool.offsets s.held i)) :
    Reflects pool a { s with held := held } i c :=
  reflects.setHeld (perm.trans reflects.held)

theorem count (reflects : Reflects pool a s i c) (calls : Nat -> Nat) :
    Reflects pool a { s with freeIntervalCalls := calls } i ⟨c.bucket, calls i⟩ :=
  ⟨⟨reflects.shows.head, reflects.shows.globalTag, reflects.shows.link⟩, reflects.held,
    reflects.point, rfl⟩

/-- What a client holds in this bucket is a block of it. -/
theorem block (reflects : Reflects pool a s i c)
    (sound : CountedBucket.Sound (pool.elementSize i) pool.bucketSizeInBytes c central)
    (bound : i < pool.bucketsCount) (member : p ∈ s.held) (addressable : p < 2 ^ 64)
    (found : pool.findBucket p = i) :
    ∃ o, pool.IsBlock i o ∧ p = pool.pData i + o ∧ o ∈ c.bucket.held := by
  have listed : p - pool.pData i ∈ pool.offsets s.held i :=
    Pool.mem_offsets.mpr ⟨p, member, found, rfl⟩
  have holds := reflects.held.mem_iff.mp listed
  have inside := Pool.inside_of_findBucket addressable bound found
  exact ⟨_, sound.owned.custody.supplied .client holds, by omega, holds⟩

/-! ## Steps seen through one bucket -/

/-- A step of `Alloc` on this bucket. -/
theorem popping (reflects : Reflects pool a s i c) (bound : i < pool.bucketsCount)
    (data : (s.world.bucket a i).pData = pool.pData i)
    (located : forall t headValue, (c.bucket.point t).remembered = some headValue ->
      pool.IsBlock i headValue.offset.toNat)
    (here : s.errand t = .popping request i point)
    (steps : PoolBucket.AllocSteps s.world.toMachine a i point onward m) :
    Reflects pool a ((s.become m).popped scheme t request i onward) i
      ⟨c.bucket.step (.proceed t), c.freeIntervalCalls⟩ := by
  have inBucket : c.bucket.point t = point := by
    rw [reflects.point t, here]
    exact if_pos rfl
  have isHead : c.bucket.head = (s.world.bucket a i).head := reflects.shows.head
  cases steps with
  | null =>
      have step : c.bucket.step (.proceed t) = c.bucket.goto t .idle := by
        simp only [AtomicBucket.step, AtomicBucket.proceed, inBucket, if_true]
      have next := reflects.goto t (onMiss scheme request i)
      rw [onMiss_pointIn] at next
      rw [step]
      exact next
  | read headValue running =>
      have block := located t headValue (by rw [inBucket, Point.remembered, if_neg running])
      have step : c.bucket.step (.proceed t) = c.bucket.goto t
          (.allocRead headValue (c.bucket.link headValue.offset.toNat)) := by
        simp only [AtomicBucket.step, AtomicBucket.proceed, inBucket, if_neg running]
      have next := reflects.goto t (.popping request i (.allocRead headValue
        (TaggedIndex.load s.world.mem ((s.world.bucket a i).pData + headValue.offset.toNat))))
      rw [Errand.pointIn, if_pos rfl] at next
      rw [step, reflects.shows.link _ block]
      exact next
  | pop headValue nextValue same =>
      have block := located t headValue (by rw [inBucket, Point.remembered])
      have step : c.bucket.step (.proceed t) = { c.bucket with
          head := nextValue
          held := headValue.offset.toNat :: c.bucket.held }.goto t .idle := by
        simp only [AtomicBucket.step, AtomicBucket.proceed, inBucket, if_pos (isHead.trans same)]
      have nonzero : (s.world.bucket a i).pData + headValue.offset.toNat ≠ 0 := by
        rw [data]
        exact pool.block_ne_zero i _
      have globalTag := reflects.shows.globalTag
      have popped := reflects.setBucket (b := { s.world.bucket a i with head := nextValue }) rfl
      have held : (pool.offsets (((s.world.bucket a i).pData + headValue.offset.toNat) :: s.held)
          i).Perm (headValue.offset.toNat :: c.bucket.held) := by
        rw [data, Pool.offsets_cons_block bound block]
        exact reflects.held.cons _
      have next := (popped.setHeld held).goto t .idle
      rw [step, popped_returns nonzero]
      rw [← globalTag] at next
      exact next
  | reload headValue nextValue other =>
      have step : c.bucket.step (.proceed t) =
          c.bucket.goto t (.allocLoaded (s.world.bucket a i).head) := by
        simp only [AtomicBucket.step, AtomicBucket.proceed, inBucket, isHead, if_neg other]
      have next := reflects.goto t (.popping request i (.allocLoaded (s.world.bucket a i).head))
      rw [Errand.pointIn, if_pos rfl] at next
      rw [step]
      exact next

/-- A step of `FreeInterval` on this bucket. -/
theorem pushing (reflects : Reflects pool a s i c) (bound : i < pool.bucketsCount)
    (data : (s.world.bucket a i).pData = pool.pData i)
    (sound : CountedBucket.Sound (pool.elementSize i) pool.bucketSizeInBytes c central)
    (here : s.errand t = .pushing i point)
    (steps : PoolBucket.FreeSteps s.world.toMachine a i point onward m) :
    Reflects pool a ((s.become m).pushed t i onward) i
      ⟨c.bucket.step (.proceed t), c.freeIntervalCalls⟩ := by
  have inBucket : c.bucket.point t = point := by
    rw [reflects.point t, here]
    exact if_pos rfl
  have isHead : c.bucket.head = (s.world.bucket a i).head := reflects.shows.head
  have isTag : c.bucket.globalTag = (s.world.bucket a i).globalTag := reflects.shows.globalTag
  cases steps with
  | draw chain =>
      have step : c.bucket.step (.proceed t) =
          { c.bucket with globalTag := c.bucket.globalTag + 1 }.goto t
            (.freeTagged chain ⟨c.bucket.globalTag, UInt32.ofNat chain.pHead⟩) := by
        simp only [AtomicBucket.step, AtomicBucket.proceed, inBucket]
      have drawn := reflects.setBucket (b := { s.world.bucket a i with
        globalTag := (s.world.bucket a i).globalTag + 1 }) rfl
      have next := drawn.goto t (.pushing i (.freeTagged chain
        ⟨(s.world.bucket a i).globalTag, UInt32.ofNat chain.pHead⟩))
      rw [Errand.pointIn, if_pos rfl] at next
      rw [step, isTag]
      rw [← isHead] at next
      exact next
  | load chain nodeValue =>
      have step : c.bucket.step (.proceed t) =
          c.bucket.goto t (.freeLoaded chain nodeValue (s.world.bucket a i).head) := by
        simp only [AtomicBucket.step, AtomicBucket.proceed, inBucket, isHead]
      have next := reflects.goto t
        (.pushing i (.freeLoaded chain nodeValue (s.world.bucket a i).head))
      rw [Errand.pointIn, if_pos rfl] at next
      rw [step]
      exact next
  | store chain nodeValue headValue =>
      have block : pool.IsBlock i chain.pTail := by
        apply sound.owned.custody.supplied (.thread t)
        rw [AtomicBucket.kept_of_point _ _ inBucket]
        exact chain.pTail_mem
      have step : c.bucket.step (.proceed t) =
          { c.bucket with link := Function.update c.bucket.link chain.pTail headValue }.goto t
            (.freeLinked chain nodeValue headValue) := by
        simp only [AtomicBucket.step, AtomicBucket.proceed, inBucket]
      have inside : forall x, TaggedIndex.store s.world.mem (pool.pData i + chain.pTail) headValue x
          ≠ s.world.mem x -> pool.pData i + chain.pTail ≤ x ∧
            x < pool.pData i + chain.pTail + pool.elementSize i := by
        intro x changed
        have positive := Pool.element_pos bound
        by_contra outside
        exact changed (TaggedIndex.store_outside (by omega))
      have stored := reflects.setMem bound data block inside
      rw [TaggedIndex.load_store] at stored
      have next := stored.goto t (.pushing i (.freeLinked chain nodeValue headValue))
      rw [Errand.pointIn, if_pos rfl] at next
      rw [step]
      rw [← data] at next
      exact next
  | push chain nodeValue headValue same =>
      have step : c.bucket.step (.proceed t) =
          { c.bucket with head := nodeValue }.goto t .idle := by
        simp only [AtomicBucket.step, AtomicBucket.proceed, inBucket, if_pos (isHead.trans same)]
      have pushed := reflects.setBucket (b := { s.world.bucket a i with head := nodeValue }) rfl
      have next := pushed.goto t .idle
      rw [step]
      rw [← isTag] at next
      exact next
  | retry chain nodeValue headValue other =>
      have step : c.bucket.step (.proceed t) =
          c.bucket.goto t (.freeLoaded chain nodeValue (s.world.bucket a i).head) := by
        simp only [AtomicBucket.step, AtomicBucket.proceed, inBucket, isHead, if_neg other]
      have next := reflects.goto t
        (.pushing i (.freeLoaded chain nodeValue (s.world.bucket a i).head))
      rw [Errand.pointIn, if_pos rfl] at next
      rw [step]
      exact next

end Reflects

end AtomicPool

end SmMalloc
