import SmMalloc.Pool.Init

namespace SmMalloc

open Foundation

/-!
# Which bucket an address belongs to

`Init` accepts any bucket size, also one that its own arithmetic cannot handle.
This module looks at what the fields of the allocator object are afterwards,
whatever the size, and compares the three ways in which the source decides who
an address belongs to: the division of `FindBucket`, the bounds of the buffer
and the bounds of the buckets.
-/

variable {scheme : Partitioning} {w w' : World} {a i j p : Nat}
variable {_bucketsCount _bucketSizeInBytes : Nat}

/-- The fields of bucket `i` after its round of `Init`. -/
structure RoutedBucket (m : Machine) (a i : Nat) : Prop where
  head : (m.bucket a i).head = ⟨0, 0⟩
  pData : (m.bucket a i).pData = (m.allocs a).pBuffer + i * (m.allocs a).bucketSizeInBytes
  bufferEnd : (m.bucket a i).pBufferEnd = (m.bucket a i).pData + (m.allocs a).bucketSizeInBytes
  begins : (m.allocs a).bucketsDataBegin i = (m.bucket a i).pData

/-- Rounds of `Init` leave these fields of an allocator object alone. -/
structure Allocator.SameBuffer (old new : Allocator) : Prop where
  bucketsCount : new.bucketsCount = old.bucketsCount
  bucketSizeInBytes : new.bucketSizeInBytes = old.bucketSizeInBytes
  pBuffer : new.pBuffer = old.pBuffer
  pBufferEnd : new.pBufferEnd = old.pBufferEnd

theorem Allocator.SameBuffer.trans {first second third : Allocator}
    (before : first.SameBuffer second) (after : second.SameBuffer third) :
    first.SameBuffer third where
  bucketsCount := after.bucketsCount.trans before.bucketsCount
  bucketSizeInBytes := after.bucketSizeInBytes.trans before.bucketSizeInBytes
  pBuffer := after.pBuffer.trans before.pBuffer
  pBufferEnd := after.pBufferEnd.trans before.pBufferEnd

theorem RoutedBucket.congr {m m' : Machine} (routed : RoutedBucket m a i)
    (same : (m.allocs a).SameBuffer (m'.allocs a)) (bucket : m'.bucket a i = m.bucket a i)
    (begins : (m'.allocs a).bucketsDataBegin i = (m.allocs a).bucketsDataBegin i) :
    RoutedBucket m' a i := by
  refine ⟨?_, ?_, ?_, ?_⟩
  · rw [bucket]; exact routed.head
  · rw [bucket, same.pBuffer, same.bucketSizeInBytes]; exact routed.pData
  · rw [bucket, same.bucketSizeInBytes]; exact routed.bufferEnd
  · rw [bucket, begins]; exact routed.begins

/-- The fields after one round, for any size. -/
theorem initBucket_fields {m : Machine} (machine : m = w.toMachine.initBucket scheme a i) :
    (w.allocs a).SameBuffer (m.allocs a) ∧ RoutedBucket m a i ∧
      (forall j, j ≠ i -> m.bucket a j = w.bucket a j) ∧
      (forall j, j ≠ i -> (m.allocs a).bucketsDataBegin j = (w.allocs a).bucketsDataBegin j) ∧
      m.heap = w.heap ∧ m.tls = w.tls := by
  subst machine
  refine ⟨⟨?_, ?_, ?_, ?_⟩, ⟨?_, ?_, ?_, ?_⟩, ?_, ?_, rfl, rfl⟩
  · simp [Machine.initBucket, PoolBucket.create, Machine.setBucket]
  · simp [Machine.initBucket, PoolBucket.create, Machine.setBucket]
  · simp [Machine.initBucket, PoolBucket.create, Machine.setBucket]
  · simp [Machine.initBucket, PoolBucket.create, Machine.setBucket]
  · simp [Machine.initBucket, PoolBucket.create, Machine.setBucket, Machine.bucket]
  · simp [Machine.initBucket, PoolBucket.create, Machine.setBucket, Machine.bucket]
  · simp [Machine.initBucket, PoolBucket.create, Machine.setBucket, Machine.bucket]
  · simp [Machine.initBucket, PoolBucket.create, Machine.setBucket, Machine.bucket]
  · intro j other
    simp [Machine.initBucket, PoolBucket.create, Machine.setBucket, Machine.bucket, other]
  · intro j other
    simp [Machine.initBucket, PoolBucket.create, Machine.setBucket, other]

/-- The fields after the last loop of `Init`, for any size. -/
theorem initBuckets_fields : forall (remaining i : Nat) (w : World),
    (forall j, j < i -> RoutedBucket w.toMachine a j) ->
    let after := Allocator.initBuckets scheme a remaining i w
    (w.allocs a).SameBuffer (after.allocs a) ∧
      (forall j, j < i + remaining -> RoutedBucket after.toMachine a j) ∧
      after.heap = w.heap ∧ after.tls = w.tls := by
  intro remaining
  induction remaining with
  | zero =>
      intro i w routed
      exact ⟨⟨rfl, rfl, rfl, rfl⟩, routed, rfl, rfl⟩
  | succ remaining ih =>
      intro i w routed
      rcases initBuckets_succ scheme w a remaining i with ⟨next, opened, machine, -⟩
      rcases initBucket_fields machine with ⟨same, here, buckets, begins, heap, tls⟩
      have routedNext : forall j, j < i + 1 -> RoutedBucket next.toMachine a j := by
        intro j below
        rcases Nat.lt_succ_iff_lt_or_eq.mp below with before | rfl
        · exact (routed j before).congr same (buckets j (by omega)) (begins j (by omega))
        · exact here
      rcases ih (i + 1) next routedNext with ⟨later, routedLater, laterHeap, laterTls⟩
      rw [opened]
      refine ⟨same.trans later, fun j below => routedLater j (by omega), laterHeap.trans heap,
        laterTls.trans tls⟩

/-- The allocator object after `Init`, for any size. -/
structure Routed (_bucketsCount _bucketSizeInBytes a : Nat) (w w' : World) : Prop where
  bucketsCount : (w'.allocs a).bucketsCount = min _bucketsCount maxBucketCount
  bucketSizeInBytes : (w'.allocs a).bucketSizeInBytes = align _bucketSizeInBytes kMaxValidAlignment
  pBuffer : (w'.allocs a).pBuffer =
    w.heap.answer (requestedBytes _bucketsCount _bucketSizeInBytes) kMaxValidAlignment
  pBufferEnd : (w'.allocs a).pBufferEnd =
    (w'.allocs a).pBuffer + requestedBytes _bucketsCount _bucketSizeInBytes + 1
  buckets : forall i, i < min _bucketsCount maxBucketCount -> RoutedBucket w'.toMachine a i
  heap : w'.heap = (w.heap.alloc (requestedBytes _bucketsCount _bucketSizeInBytes)
    kMaxValidAlignment).2
  tls : w'.tls = w.tls

theorem init_routed (scheme : Partitioning) (_bucketSizeInBytes : Nat)
    (fresh : (w.allocs a).bucketsCount = 0) (positive : 0 < _bucketsCount) :
    Routed _bucketsCount _bucketSizeInBytes a w
      (Allocator.init scheme w a _bucketsCount _bucketSizeInBytes) := by
  rcases init_opened scheme _bucketSizeInBytes fresh positive with ⟨ready, start, opened⟩
  rcases initBuckets_fields (min _bucketsCount maxBucketCount) 0 ready
    (fun j below => absurd below (Nat.not_lt_zero j)) with ⟨same, routed, heap, tls⟩
  rw [Nat.zero_add] at routed
  rw [opened]
  refine ⟨same.bucketsCount.trans start.bucketsCount,
    same.bucketSizeInBytes.trans start.bucketSizeInBytes, same.pBuffer.trans start.pBuffer, ?_,
    routed, heap.trans start.heap, tls.trans start.tls⟩
  rw [same.pBufferEnd, start.pBufferEnd, same.pBuffer, start.pBuffer]

/-- The last loop of `Init` stores through a null buffer if it is given one. -/
theorem initBuckets_faults : forall (remaining i : Nat) (w : World),
    Fault.storeThroughNull ∈ (Allocator.initBuckets scheme a remaining i w).faults <->
      Fault.storeThroughNull ∈ w.faults ∨ 0 < remaining ∧ (w.allocs a).pBuffer = 0 := by
  intro remaining
  induction remaining with
  | zero =>
      intro i w
      exact ⟨Or.inl, fun either => either.resolve_right (fun both => absurd both.1 (by omega))⟩
  | succ remaining ih =>
      intro i w
      rcases initBuckets_succ scheme w a remaining i with ⟨next, opened, machine, -, faults⟩
      have pBuffer := (initBucket_fields machine).1.pBuffer
      rw [opened, ih, pBuffer, faults]
      by_cases null : (w.allocs a).pBuffer = 0
      · simp [null]
      · simp [null]

/-- `Init` of at least one bucket makes a bad store exactly when its buffer is refused. -/
theorem init_stores (scheme : Partitioning) (_bucketSizeInBytes : Nat)
    (fresh : (w.allocs a).bucketsCount = 0) (positive : 0 < _bucketsCount) :
    Fault.storeThroughNull ∈ (Allocator.init scheme w a _bucketsCount _bucketSizeInBytes).faults <->
      Fault.storeThroughNull ∈ w.faults ∨
        w.heap.answer (requestedBytes _bucketsCount _bucketSizeInBytes) kMaxValidAlignment = 0 := by
  rcases init_opened scheme _bucketSizeInBytes fresh positive with ⟨ready, start, opened⟩
  have some : 0 < min _bucketsCount maxBucketCount := Nat.lt_min.mpr ⟨positive, by decide⟩
  rw [opened, initBuckets_faults, start.faults, start.pBuffer, and_iff_right some]

/-! ## The three tests -/

/-- The division of `FindBucket` finds a bucket exactly for the addresses in it. -/
theorem sizeSub_div_eq_iff {base size n : Nat} (positive : 0 < size)
    (ends : base + n * size < 2 ^ 64) (addressable : p < 2 ^ 64) (inside : i < n) :
    sizeSub p base / size = i <-> base + i * size ≤ p ∧ p < base + i * size + size := by
  have top := cell_le inside size
  rw [Nat.div_eq_iff positive]
  unfold sizeSub
  omega

/-- The tests give the same answer for the address `p`. -/
structure Allocator.Agree (alloc : Allocator) (p : Nat) : Prop where
  bucket : forall i, i < alloc.bucketsCount ->
    (alloc.findBucket p = i <-> (alloc.buckets i).isMyAlloc p = true)
  buffer : alloc.isMyAlloc p = true <->
    ∃ i, i < alloc.bucketsCount ∧ (alloc.buckets i).isMyAlloc p = true
  index : 0 ≤ alloc.getBucketIndex p <-> alloc.isMyAlloc p = true
  value : forall i, i < alloc.bucketsCount -> alloc.findBucket p = i -> alloc.getBucketIndex p = i

theorem PoolBucket.isMyAlloc_iff (bucket : PoolBucket) (p : Nat) :
    bucket.isMyAlloc p = true <-> bucket.pData ≤ p ∧ p < bucket.pBufferEnd := by
  rw [PoolBucket.isMyAlloc, Bool.and_eq_true, decide_eq_true_iff, decide_eq_true_iff]

theorem Allocator.isMyAlloc_iff (alloc : Allocator) (p : Nat) :
    alloc.isMyAlloc p = true <-> alloc.pBuffer ≤ p ∧ p < alloc.pBufferEnd := by
  rw [Allocator.isMyAlloc, Bool.and_eq_true, decide_eq_true_iff, decide_eq_true_iff]

/-- `GetBucketIndex`, for an address that passes the test of the buffer. -/
theorem Allocator.getBucketIndex_of_mine {alloc : Allocator} (mine : alloc.isMyAlloc p = true) :
    alloc.getBucketIndex p =
      if alloc.bucketsCount ≤ alloc.findBucket p then -1 else (alloc.findBucket p : Int) := by
  rw [Allocator.getBucketIndex, if_neg (by rw [mine]; decide)]

/-- An object whose buckets divide its buffer, and whose end pointer is one too high. -/
structure Allocator.Cut (alloc : Allocator) : Prop where
  size_pos : 0 < alloc.bucketSizeInBytes
  ends : alloc.pBuffer + alloc.bucketsCount * alloc.bucketSizeInBytes < 2 ^ 64
  begins : alloc.bucketsDataBegin 0 = alloc.pBuffer
  pBufferEnd : alloc.pBufferEnd =
    alloc.pBuffer + alloc.bucketsCount * alloc.bucketSizeInBytes + 1
  pData : forall i, i < alloc.bucketsCount ->
    (alloc.buckets i).pData = alloc.pBuffer + i * alloc.bucketSizeInBytes
  bufferEnd : forall i, i < alloc.bucketsCount ->
    (alloc.buckets i).pBufferEnd = (alloc.buckets i).pData + alloc.bucketSizeInBytes

namespace Allocator.Cut

variable {alloc : Allocator}

theorem findBucket_iff (cut : alloc.Cut) (addressable : p < 2 ^ 64) (inside : i < alloc.bucketsCount) :
    alloc.findBucket p = i <-> (alloc.buckets i).isMyAlloc p = true := by
  rw [PoolBucket.isMyAlloc_iff, cut.bufferEnd i inside, cut.pData i inside, Allocator.findBucket,
    cut.begins]
  exact sizeSub_div_eq_iff cut.size_pos cut.ends addressable inside

/-- The buckets cover the buffer up to its last byte. -/
theorem covers (cut : alloc.Cut) (addressable : p < 2 ^ 64) :
    (∃ i, i < alloc.bucketsCount ∧ (alloc.buckets i).isMyAlloc p = true) <->
      alloc.pBuffer ≤ p ∧ p < alloc.pBuffer + alloc.bucketsCount * alloc.bucketSizeInBytes := by
  constructor
  · rintro ⟨i, inside, mine⟩
    rw [PoolBucket.isMyAlloc_iff, cut.bufferEnd i inside, cut.pData i inside] at mine
    have top := cell_le inside alloc.bucketSizeInBytes
    omega
  · rintro ⟨low, high⟩
    have ends := cut.ends
    have inside : alloc.findBucket p < alloc.bucketsCount := by
      rw [Allocator.findBucket, cut.begins, sizeSub_of_le low addressable]
      apply Nat.div_lt_of_lt_mul
      rw [Nat.mul_comm]
      omega
    exact ⟨_, inside, (cut.findBucket_iff addressable inside).mp rfl⟩

/-- The tests agree on every address but the one just behind the buffer. -/
theorem agree_iff (cut : alloc.Cut) (addressable : p < 2 ^ 64) :
    alloc.Agree p <-> p ≠ alloc.pBuffer + alloc.bucketsCount * alloc.bucketSizeInBytes := by
  have covers := cut.covers addressable
  constructor
  · rintro agree rfl
    have mine : alloc.isMyAlloc
        (alloc.pBuffer + alloc.bucketsCount * alloc.bucketSizeInBytes) = true := by
      rw [Allocator.isMyAlloc_iff, cut.pBufferEnd]
      omega
    have inside := covers.mp (agree.buffer.mp mine)
    omega
  · intro different
    have buffer : alloc.isMyAlloc p = true <->
        ∃ i, i < alloc.bucketsCount ∧ (alloc.buckets i).isMyAlloc p = true := by
      rw [covers, Allocator.isMyAlloc_iff, cut.pBufferEnd]
      omega
    have value : forall i, i < alloc.bucketsCount -> alloc.findBucket p = i ->
        alloc.getBucketIndex p = i := by
      intro i inside found
      have mine := buffer.mpr ⟨i, inside, (cut.findBucket_iff addressable inside).mp found⟩
      rw [Allocator.getBucketIndex_of_mine mine, found, if_neg (Nat.not_le_of_lt inside)]
    refine ⟨fun i inside => cut.findBucket_iff addressable inside, buffer, ?_, value⟩
    constructor
    · intro valid
      by_contra foreign
      rw [Allocator.getBucketIndex, if_pos (Bool.eq_false_iff.mpr foreign)] at valid
      exact absurd valid (by decide)
    · intro mine
      rcases buffer.mp mine with ⟨i, inside, here⟩
      rw [value i inside ((cut.findBucket_iff addressable inside).mpr here)]
      exact Int.natCast_nonneg i

/-- Blocks that fit in a bucket are routed to it. -/
theorem findBucket_block (cut : alloc.Cut) (inside : i < alloc.bucketsCount) {k e : Nat}
    (fits : k * e + e ≤ alloc.bucketSizeInBytes) :
    alloc.findBucket ((alloc.buckets i).pData + k * e) = i := by
  have positive := cut.size_pos
  have ends := cut.ends
  have within : k * e < alloc.bucketSizeInBytes := by
    cases e with
    | zero => exact positive
    | succ e => omega
  have top := cell_le inside alloc.bucketSizeInBytes
  have pData := cut.pData i inside
  apply (cut.findBucket_iff _ inside).mpr
  · rw [PoolBucket.isMyAlloc_iff, cut.bufferEnd i inside]
    omega
  · omega

end Allocator.Cut

/-- `Init` cuts the buffer into buckets, whenever there is anything to cut. -/
theorem Routed.cut (routed : Routed _bucketsCount _bucketSizeInBytes a w w')
    (positive : 0 < _bucketsCount) (size : align _bucketSizeInBytes kMaxValidAlignment ≠ 0)
    (ends : (w'.allocs a).pBuffer + (w'.allocs a).bucketsCount * (w'.allocs a).bucketSizeInBytes <
      2 ^ 64) : (w'.allocs a).Cut := by
  have some : 0 < min _bucketsCount maxBucketCount := Nat.lt_min.mpr ⟨positive, by decide⟩
  have buckets := routed.buckets
  rw [← routed.bucketsCount] at buckets some
  have bytes : requestedBytes _bucketsCount _bucketSizeInBytes =
      (w'.allocs a).bucketsCount * (w'.allocs a).bucketSizeInBytes := by
    rw [requestedBytes, ← routed.bucketsCount, ← routed.bucketSizeInBytes, Nat.mul_comm]
    exact Nat.mod_eq_of_lt (by omega)
  refine ⟨?_, ends, ?_, ?_, fun i inside => (buckets i inside).pData,
    fun i inside => (buckets i inside).bufferEnd⟩
  · rw [routed.bucketSizeInBytes]
    exact Nat.pos_of_ne_zero size
  · have first := buckets 0 some
    rw [first.begins, first.pData, Nat.zero_mul, Nat.add_zero]
  · rw [routed.pBufferEnd, bytes]

/-- For every object that `Init` has set up, the ownership tests agree on
every address but the one just behind the buffer, and blocks are routed to
the bucket that they fit in. -/
theorem ownership_agrees (scheme : Partitioning) (fresh : (w.allocs a).bucketsCount = 0)
    (positive : 0 < _bucketsCount) (size : align _bucketSizeInBytes kMaxValidAlignment ≠ 0)
    {alloc : Allocator}
    (initialised : alloc =
      (Allocator.init scheme w a _bucketsCount _bucketSizeInBytes).allocs a)
    (ends : alloc.pBuffer + alloc.bucketsCount * alloc.bucketSizeInBytes < 2 ^ 64) :
    (forall p, p < 2 ^ 64 ->
        (alloc.Agree p <-> p ≠ alloc.pBuffer + alloc.bucketsCount * alloc.bucketSizeInBytes)) ∧
      forall i k, i < alloc.bucketsCount ->
        k * scheme.getBucketSizeInBytesByIndex i + scheme.getBucketSizeInBytesByIndex i ≤
          alloc.bucketSizeInBytes ->
        alloc.findBucket ((alloc.buckets i).pData + k * scheme.getBucketSizeInBytesByIndex i) =
          i := by
  subst initialised
  have cut := (init_routed scheme _ fresh positive).cut positive size ends
  exact ⟨fun p addressable => cut.agree_iff addressable,
    fun i k inside fits => cut.findBucket_block inside fits⟩

/-- One bucket of one page, in a buffer at address 8192. -/
theorem ownership_agrees_onePage :
    (forall p, p < 2 ^ 64 ->
        (((Allocator.init .piecewise (World.initial everyOtherPage) 0 1 4096).allocs 0).Agree p <->
          p ≠ 12288)) ∧
      forall i k, i < 1 -> k * Partitioning.piecewise.getBucketSizeInBytesByIndex i +
          Partitioning.piecewise.getBucketSizeInBytesByIndex i ≤ 4096 ->
        ((Allocator.init .piecewise (World.initial everyOtherPage) 0 1 4096).allocs 0).findBucket
          ((((Allocator.init .piecewise (World.initial everyOtherPage) 0 1 4096).allocs 0).buckets
            i).pData + k * Partitioning.piecewise.getBucketSizeInBytesByIndex i) = i :=
  ownership_agrees (w := World.initial everyOtherPage) (a := 0) .piecewise rfl (by decide)
    (by decide) rfl (by decide)

/-- The address just behind that buffer is taken for one of its own. -/
theorem ownership_disagrees_onePage :
    ¬ ((Allocator.init .piecewise (World.initial everyOtherPage) 0 1 4096).allocs 0).Agree
      12288 := by
  intro agree
  exact absurd (agree.index.mpr (by decide)) (by decide)

end SmMalloc
