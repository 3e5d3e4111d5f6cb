import SmMalloc.Pool.Create
import SmMalloc.Pool.Sound

namespace SmMalloc

open Foundation

/-!
# Init lays the pool out

`Allocator::Init` cuts its buffer into buckets of equal size and lets `Create`
thread each of them.  `Laid` says what that leaves behind for a run of
buckets; the loop extends it bucket by bucket, because a bucket is only ever
written within its own bytes.
-/

variable {scheme : Partitioning} {m m' : Machine} {w : World} {a i j : Nat}

/-- Bucket `i` of an allocator object after its round of `Init`. -/
structure LaidBucket (scheme : Partitioning) (m : Machine) (a i : Nat) : Prop where
  created : Created m a i (scheme.getBucketSizeInBytesByIndex i)
  pData : (m.bucket a i).pData = (m.allocs a).pBuffer + i * (m.allocs a).bucketSizeInBytes
  bufferEnd : (m.bucket a i).pBufferEnd = (m.bucket a i).pData + (m.allocs a).bucketSizeInBytes
  begins : (m.allocs a).bucketsDataBegin i = (m.bucket a i).pData

/-- What the rounds of `Init` for the buckets from `i` up to `last` change. -/
structure InitRounds (a i last : Nat) (w w' : World) : Prop where
  bucketsCount : (w'.allocs a).bucketsCount = (w.allocs a).bucketsCount
  bucketSizeInBytes : (w'.allocs a).bucketSizeInBytes = (w.allocs a).bucketSizeInBytes
  pBuffer : (w'.allocs a).pBuffer = (w.allocs a).pBuffer
  pBufferEnd : (w'.allocs a).pBufferEnd = (w.allocs a).pBufferEnd
  below : forall j, j < i -> w'.bucket a j = w.bucket a j
  belowBegins : forall j, j < i ->
    (w'.allocs a).bucketsDataBegin j = (w.allocs a).bucketsDataBegin j
  mem : forall x, x < (w.allocs a).pBuffer + i * (w.allocs a).bucketSizeInBytes ∨
    (w.allocs a).pBuffer + last * (w.allocs a).bucketSizeInBytes ≤ x -> w'.mem x = w.mem x
  allocs : forall b, b ≠ a -> w'.allocs b = w.allocs b
  tls : w'.tls = w.tls
  heap : w'.heap = w.heap

/-- A bucket that is laid out stays so while later buckets are. -/
theorem LaidBucket.later {w w' : World} {last : Nat} (laid : LaidBucket scheme w.toMachine a j)
    (rounds : InitRounds a i last w w') (below : j < i)
    (elementMin : 8 ≤ scheme.getBucketSizeInBytesByIndex j)
    (sizeMin : 8 ≤ (w.allocs a).bucketSizeInBytes) : LaidBucket scheme w'.toMachine a j := by
  have same : w'.toMachine.bucket a j = w.toMachine.bucket a j := rounds.below j below
  refine ⟨⟨?_, ?_, ?_⟩, ?_, ?_, ?_⟩
  · rw [same]
    exact laid.created.head
  · rw [same]
    exact laid.created.globalTag
  · rw [same]
    intro k inside
    rw [← laid.created.links k inside]
    apply TaggedIndex.load_congr
    intro n small
    apply rounds.mem
    left
    have difference : (w.bucket a j).pBufferEnd - (w.bucket a j).pData =
        (w.allocs a).bucketSizeInBytes := by
      have bufferEnd := laid.bufferEnd
      omega
    rw [difference] at inside
    have within := created_inside elementMin sizeMin inside
    have pData := laid.pData
    have step := cell_le below (w.allocs a).bucketSizeInBytes
    omega
  · rw [same, rounds.pBuffer, rounds.bucketSizeInBytes]
    exact laid.pData
  · rw [same, rounds.bucketSizeInBytes]
    exact laid.bufferEnd
  · rw [same, rounds.belowBegins j below]
    exact laid.begins

theorem InitRounds.trans {first second third : World} {middle last : Nat}
    (before : InitRounds a i middle first second) (after : InitRounds a middle last second third)
    (le : i ≤ middle) (le' : middle ≤ last) : InitRounds a i last first third where
  bucketsCount := after.bucketsCount.trans before.bucketsCount
  bucketSizeInBytes := after.bucketSizeInBytes.trans before.bucketSizeInBytes
  pBuffer := after.pBuffer.trans before.pBuffer
  pBufferEnd := after.pBufferEnd.trans before.pBufferEnd
  below := fun j below => (after.below j (by omega)).trans (before.below j below)
  belowBegins := fun j below =>
    (after.belowBegins j (by omega)).trans (before.belowBegins j below)
  mem := by
    intro x outside
    have low : i * (first.allocs a).bucketSizeInBytes ≤
        middle * (first.allocs a).bucketSizeInBytes := Nat.mul_le_mul_right _ le
    have high : middle * (first.allocs a).bucketSizeInBytes ≤
        last * (first.allocs a).bucketSizeInBytes := Nat.mul_le_mul_right _ le'
    have later := after.mem x
    rw [before.pBuffer, before.bucketSizeInBytes] at later
    exact (later (by omega)).trans (before.mem x (by omega))
  allocs := fun b other => (after.allocs b other).trans (before.allocs b other)
  tls := after.tls.trans before.tls
  heap := after.heap.trans before.heap

theorem Created.congr {elementSize : Nat} (created : Created m a i elementSize)
    (bucket : m'.bucket a i = m.bucket a i) (mem : m'.mem = m.mem) :
    Created m' a i elementSize := by
  refine ⟨?_, ?_, ?_⟩
  · rw [bucket]; exact created.head
  · rw [bucket]; exact created.globalTag
  · rw [bucket, mem]; exact created.links

/-- What a round of `Init` does to the machine. -/
def Machine.initBucket (scheme : Partitioning) (m : Machine) (a i : Nat) : Machine :=
  let alloc := m.allocs a
  let pData := alloc.pBuffer + i * alloc.bucketSizeInBytes
  let bucket := { m.bucket a i with
    pData := pData
    pBufferEnd := pData + alloc.bucketSizeInBytes }
  let m := PoolBucket.create (m.setBucket a i bucket) a i (scheme.getBucketSizeInBytesByIndex i)
  let begun := { m.allocs a with
    bucketsDataBegin := Function.update (m.allocs a).bucketsDataBegin i pData }
  { m with allocs := Function.update m.allocs a begun }

theorem initBucket_spec (elementMin : 8 ≤ scheme.getBucketSizeInBytesByIndex i)
    (sizeMin : 8 ≤ (w.allocs a).bucketSizeInBytes) {next : World}
    (machine : next.toMachine = w.toMachine.initBucket scheme a i) :
    InitRounds a i (i + 1) w next ∧ LaidBucket scheme next.toMachine a i := by
  obtain ⟨pData, isData⟩ : ∃ pData, pData =
      (w.allocs a).pBuffer + i * (w.allocs a).bucketSizeInBytes := ⟨_, rfl⟩
  obtain ⟨cut, isCut⟩ : ∃ cut, cut = w.toMachine.setBucket a i { w.bucket a i with
      pData := pData
      pBufferEnd := pData + (w.allocs a).bucketSizeInBytes } := ⟨_, rfl⟩
  have slot : cut.bucket a i = { w.bucket a i with
      pData := pData
      pBufferEnd := pData + (w.allocs a).bucketSizeInBytes } := by
    rw [isCut, Machine.setBucket_bucket_same]
  have cutData : (cut.bucket a i).pData = pData := by rw [slot]
  have cutEnd : (cut.bucket a i).pBufferEnd = pData + (w.allocs a).bucketSizeInBytes := by
    rw [slot]
  rcases create_spec (m := cut) (a := a) (i := i) elementMin (by omega) with
    ⟨created, data, bufferEnd, frame⟩
  obtain ⟨built, isBuilt⟩ : ∃ built, built =
      PoolBucket.create cut a i (scheme.getBucketSizeInBytesByIndex i) := ⟨_, rfl⟩
  rw [← isBuilt] at created data bufferEnd frame
  obtain ⟨begun, isBegun⟩ : ∃ begun, begun = { built.allocs a with
      bucketsDataBegin := Function.update (built.allocs a).bucketsDataBegin i pData } := ⟨_, rfl⟩
  have result : next.toMachine =
      { built with allocs := Function.update built.allocs a begun } := by
    rw [machine, isBegun, isBuilt, isCut, isData]
    rfl
  have sameBucket : next.toMachine.bucket a i = built.bucket a i := by
    rw [result, isBegun]
    simp [Machine.bucket]
  have alloc : next.allocs a = { w.allocs a with
      buckets := (built.allocs a).buckets
      bucketsDataBegin := Function.update (w.allocs a).bucketsDataBegin i pData } := by
    rw [result, isBegun, isBuilt, isCut]
    simp [PoolBucket.create, Machine.setBucket]
  have others : forall j, j ≠ i -> next.bucket a j = w.bucket a j := by
    intro j other
    rw [result, isBegun, isBuilt, isCut]
    simp [Machine.bucket, PoolBucket.create, Machine.setBucket, other]
  constructor
  · refine ⟨?_, ?_, ?_, ?_, ?_, ?_, ?_, ?_, ?_, ?_⟩
    · rw [alloc]
    · rw [alloc]
    · rw [alloc]
    · rw [alloc]
    · exact fun j below => others j (by omega)
    · intro j below
      rw [alloc]
      exact Function.update_of_ne (by omega) _ _
    · intro x outside
      rw [Nat.succ_mul] at outside
      have untouched := frame x (by omega)
      rw [result]
      exact untouched.trans (by rw [isCut]; rfl)
    · intro b other
      rw [result, isBuilt, isCut]
      simp [PoolBucket.create, Machine.setBucket, other]
    · rw [result, isBuilt, isCut]
      rfl
    · rw [result, isBuilt, isCut]
      rfl
  · refine ⟨created.congr sameBucket (by rw [result]), ?_, ?_, ?_⟩
    · rw [sameBucket, data, cutData, alloc]
      exact isData
    · rw [sameBucket, bufferEnd, data, cutData, cutEnd, alloc]
    · rw [sameBucket, data, cutData, alloc]
      exact Function.update_self _ _ _

/-- One round of the last loop of `Init`. -/
theorem initBuckets_succ (scheme : Partitioning) (w : World) (a remaining i : Nat) :
    ∃ next : World, Allocator.initBuckets scheme a (remaining + 1) i w =
        Allocator.initBuckets scheme a remaining (i + 1) next ∧
      next.toMachine = w.toMachine.initBucket scheme a i ∧
      (isAligned (scheme.getBucketSizeInBytesByIndex i) kMinValidAlignment = true ->
        isAligned ((w.allocs a).pBuffer + i * (w.allocs a).bucketSizeInBytes)
          kMaxValidAlignment = true ->
        16 ≤ scheme.getBucketSizeInBytesByIndex i -> next.failed = w.failed) ∧
      next.faults = if (w.allocs a).pBuffer = 0 then .storeThroughNull :: w.faults
        else w.faults := by
  refine ⟨_, rfl, ?_, ?_, ?_⟩
  · have same : forall (w' : World), w'.toMachine = w.toMachine ->
        (if (w.allocs a).pBuffer = 0 then w'.fault .storeThroughNull else w').toMachine =
          w.toMachine := by
      intro w' equal
      split
      · exact equal
      · exact equal
    simp only [Machine.initBucket]
    rw [same]
    rw [World.check_toMachine, World.check_toMachine, World.check_toMachine]
  · intro element data positive
    have elementFine : decide (scheme.getBucketSizeInBytesByIndex i ≥ 16) = true :=
      decide_eq_true positive
    simp only [World.check_true _ element, World.check_true _ data, World.check_true _ elementFine]
    split <;> rfl
  · split
    next => simp only [World.fault, World.check_faults]
    next => simp only [World.check_faults]

/-- The last loop of `Init` lays out every bucket of its range. -/
theorem initBuckets_spec : forall (remaining i : Nat) (w : World),
    (forall j, j < i + remaining -> 16 ≤ scheme.getBucketSizeInBytesByIndex j) ->
    8 ≤ (w.allocs a).bucketSizeInBytes ->
    (forall j, j < i -> LaidBucket scheme w.toMachine a j) ->
    let after := Allocator.initBuckets scheme a remaining i w
    InitRounds a i (i + remaining) w after ∧
      forall j, j < i + remaining -> LaidBucket scheme after.toMachine a j := by
  intro remaining
  induction remaining with
  | zero =>
      intro i w _ _ laid
      exact ⟨⟨rfl, rfl, rfl, rfl, fun _ _ => rfl, fun _ _ => rfl, fun _ _ => rfl, fun _ _ => rfl,
        rfl, rfl⟩, laid⟩
  | succ remaining ih =>
      intro i w elementMin sizeMin laid
      rcases initBuckets_succ scheme w a remaining i with ⟨next, opened, machine, -⟩
      rcases initBucket_spec (Nat.le_trans (by decide) (elementMin i (by omega))) sizeMin machine
        with ⟨rounds, laidHere⟩
      have laidNext : forall j, j < i + 1 -> LaidBucket scheme next.toMachine a j := by
        intro j below
        rcases Nat.lt_succ_iff_lt_or_eq.mp below with before | rfl
        · exact (laid j before).later rounds before
            (Nat.le_trans (by decide) (elementMin j (by omega))) sizeMin
        · exact laidHere
      rcases ih (i + 1) next (fun j below => elementMin j (by omega))
        (by rw [rounds.bucketSizeInBytes]; exact sizeMin) laidNext with ⟨later, laidLater⟩
      rw [opened]
      have reassociate : i + 1 + remaining = i + (remaining + 1) := by omega
      rw [reassociate] at later laidLater
      exact ⟨rounds.trans later (by omega) (by omega), laidLater⟩

theorem initBuckets_failed (sized : scheme.Sized) : forall (remaining i : Nat) (w : World),
    i + remaining ≤ maxBucketCount -> 8 ≤ (w.allocs a).bucketSizeInBytes ->
    kMaxValidAlignment ∣ (w.allocs a).pBuffer ->
    kMaxValidAlignment ∣ (w.allocs a).bucketSizeInBytes ->
    (Allocator.initBuckets scheme a remaining i w).failed = w.failed := by
  have validMin : ValidAlignment kMinValidAlignment := ⟨2, by decide, rfl⟩
  have validMax : ValidAlignment kMaxValidAlignment := ⟨12, by decide, rfl⟩
  intro remaining
  induction remaining with
  | zero => intro i w _ _ _ _; rfl
  | succ remaining ih =>
      intro i w inside sizeMin base size
      have positive := sized.size_pos i (by omega)
      rcases initBuckets_succ scheme w a remaining i with ⟨next, opened, machine, failed, -⟩
      rcases initBucket_spec (Nat.le_trans (by decide) positive) sizeMin machine with ⟨rounds, -⟩
      rw [opened, ih (i + 1) next (by omega)]
      · exact failed ((isAligned_iff validMin).mpr (sized.size_dvd i (by omega)))
          ((isAligned_iff validMax).mpr (Nat.dvd_add base (Dvd.dvd.mul_left size i))) positive
      · rw [rounds.bucketSizeInBytes]; exact sizeMin
      · rw [rounds.pBuffer]; exact base
      · rw [rounds.bucketSizeInBytes]; exact size

/-! ## Allocator::Init -/

/-- The arguments of `Init` that this development is about: at least one
bucket, and buckets between a byte and four gigabytes. -/
structure InitArguments (_bucketsCount _bucketSizeInBytes : Nat) : Prop where
  count_pos : 0 < _bucketsCount
  size_pos : 0 < _bucketSizeInBytes
  size_le : _bucketSizeInBytes ≤ 2 ^ 32

variable {_bucketsCount _bucketSizeInBytes : Nat}

theorem InitArguments.aligned (arguments : InitArguments _bucketsCount _bucketSizeInBytes) :
    4096 ≤ align _bucketSizeInBytes kMaxValidAlignment ∧
      align _bucketSizeInBytes kMaxValidAlignment ≤ 2 ^ 32 ∧
      kMaxValidAlignment ∣ align _bucketSizeInBytes kMaxValidAlignment := by
  have valid : ValidAlignment kMaxValidAlignment := ⟨12, by decide, rfl⟩
  have positive := arguments.size_pos
  have bound := arguments.size_le
  rw [align_eq_roundUp valid positive (by unfold kMaxValidAlignment; omega)]
  unfold roundUp kMaxValidAlignment
  refine ⟨by omega, by omega, Dvd.intro_left _ rfl⟩

/-- The size of the buffer that `Init` asks for. -/
def bufferBytes (_bucketsCount _bucketSizeInBytes : Nat) : Nat :=
  min _bucketsCount maxBucketCount * align _bucketSizeInBytes kMaxValidAlignment

theorem InitArguments.bytes_lt (arguments : InitArguments _bucketsCount _bucketSizeInBytes) :
    bufferBytes _bucketsCount _bucketSizeInBytes < 2 ^ 64 := by
  have count : min _bucketsCount maxBucketCount ≤ 62 := Nat.min_le_right _ _
  have product := Nat.mul_le_mul count arguments.aligned.2.1
  unfold bufferBytes
  omega

/-- The number of bytes that `Init` asks for, with the wrap-around of `size_t`. -/
def requestedBytes (_bucketsCount _bucketSizeInBytes : Nat) : Nat :=
  align _bucketSizeInBytes kMaxValidAlignment * min _bucketsCount maxBucketCount % 2 ^ 64

theorem InitArguments.requestedBytes
    (arguments : InitArguments _bucketsCount _bucketSizeInBytes) :
    requestedBytes _bucketsCount _bucketSizeInBytes =
      bufferBytes _bucketsCount _bucketSizeInBytes := by
  rw [SmMalloc.requestedBytes, Nat.mul_comm]
  exact Nat.mod_eq_of_lt arguments.bytes_lt

/-- The machine on which `Init` runs its last loop. -/
structure BufferReady (_bucketsCount _bucketSizeInBytes a : Nat) (w w' : World) : Prop where
  bucketsCount : (w'.allocs a).bucketsCount = min _bucketsCount maxBucketCount
  bucketSizeInBytes : (w'.allocs a).bucketSizeInBytes = align _bucketSizeInBytes kMaxValidAlignment
  pBuffer : (w'.allocs a).pBuffer =
    w.heap.answer (requestedBytes _bucketsCount _bucketSizeInBytes) kMaxValidAlignment
  pBufferEnd : (w'.allocs a).pBufferEnd =
    w.heap.answer (requestedBytes _bucketsCount _bucketSizeInBytes) kMaxValidAlignment +
      requestedBytes _bucketsCount _bucketSizeInBytes + 1
  allocs : forall b, b ≠ a -> w'.allocs b = w.allocs b
  tls : w'.tls = w.tls
  heap : w'.heap = (w.heap.alloc (requestedBytes _bucketsCount _bucketSizeInBytes)
    kMaxValidAlignment).2
  failed : w'.failed = (w.check .initBucketsCount
    (decide (_bucketsCount > 0) && decide (_bucketsCount ≤ maxBucketCount))).failed
  faults : w'.faults = w.faults
  mem : w'.mem = w.mem

/-- Everything that `Init` does before its last loop. -/
theorem init_opened (scheme : Partitioning) (_bucketSizeInBytes : Nat)
    (fresh : (w.allocs a).bucketsCount = 0) (positive : 0 < _bucketsCount) :
    ∃ ready : World, BufferReady _bucketsCount _bucketSizeInBytes a w ready ∧
      Allocator.init scheme w a _bucketsCount _bucketSizeInBytes =
        Allocator.initBuckets scheme a (min _bucketsCount maxBucketCount) 0 ready := by
  have valid : ValidAlignment kMaxValidAlignment := ⟨12, by decide, rfl⟩
  have notYet : ¬ (w.allocs a).bucketsCount > 0 := by omega
  have nonzero : ¬ _bucketsCount = 0 := by omega
  have clamp : (if _bucketsCount ≥ maxBucketCount then maxBucketCount else _bucketsCount) =
      min _bucketsCount maxBucketCount := by
    rw [Nat.min_def]
    split <;> split <;> omega
  simp only [Allocator.init, if_neg notYet, if_neg nonzero, World.checkAlign_eq _ _ valid, clamp]
  refine ⟨_, ?_, rfl⟩
  simp only [World.check_toMachine]
  constructor
  · exact congrArg Allocator.bucketsCount (Function.update_self a _ w.allocs)
  · exact congrArg Allocator.bucketSizeInBytes (Function.update_self a _ w.allocs)
  · exact congrArg Allocator.pBuffer (Function.update_self a _ w.allocs)
  · exact congrArg Allocator.pBufferEnd (Function.update_self a _ w.allocs)
  · exact fun b other => Function.update_of_ne other _ _
  · rfl
  · rfl
  · rfl
  · exact World.check_faults _ _ _
  · rfl

/-- The allocator object after `Init`. -/
structure Initialised (scheme : Partitioning) (_bucketsCount _bucketSizeInBytes a : Nat)
    (w w' : World) : Prop where
  bucketsCount : (w'.allocs a).bucketsCount = min _bucketsCount maxBucketCount
  bucketSizeInBytes : (w'.allocs a).bucketSizeInBytes = align _bucketSizeInBytes kMaxValidAlignment
  pBuffer : (w'.allocs a).pBuffer =
    w.heap.answer (bufferBytes _bucketsCount _bucketSizeInBytes) kMaxValidAlignment
  pBufferEnd : (w'.allocs a).pBufferEnd =
    (w'.allocs a).pBuffer + bufferBytes _bucketsCount _bucketSizeInBytes + 1
  buckets : forall i, i < min _bucketsCount maxBucketCount -> LaidBucket scheme w'.toMachine a i
  mem : forall x, x < (w'.allocs a).pBuffer ∨
    (w'.allocs a).pBuffer + bufferBytes _bucketsCount _bucketSizeInBytes ≤ x -> w'.mem x = w.mem x
  allocs : forall b, b ≠ a -> w'.allocs b = w.allocs b
  tls : w'.tls = w.tls
  heap : w'.heap = (w.heap.alloc (bufferBytes _bucketsCount _bucketSizeInBytes)
    kMaxValidAlignment).2

/-- `Init` -/
theorem init_spec (scheme : Partitioning)
    (arguments : InitArguments _bucketsCount _bucketSizeInBytes)
    (fresh : (w.allocs a).bucketsCount = 0) :
    Initialised scheme _bucketsCount _bucketSizeInBytes a w
      (Allocator.init scheme w a _bucketsCount _bucketSizeInBytes) := by
  rcases init_opened scheme _bucketSizeInBytes fresh arguments.count_pos with ⟨ready, start, opened⟩
  have bytes := arguments.requestedBytes
  have count : min _bucketsCount maxBucketCount ≤ maxBucketCount := Nat.min_le_right _ _
  have sizeMin : 8 ≤ (ready.allocs a).bucketSizeInBytes := by
    rw [start.bucketSizeInBytes]
    exact Nat.le_trans (by decide) arguments.aligned.1
  rcases initBuckets_spec (min _bucketsCount maxBucketCount) 0 ready
    (fun j below => scheme.size_pos (i := j) (by omega)) sizeMin
    (fun j below => absurd below (Nat.not_lt_zero j)) with ⟨rounds, laid⟩
  rw [Nat.zero_add] at rounds laid
  rw [opened]
  refine ⟨rounds.bucketsCount.trans start.bucketsCount,
    rounds.bucketSizeInBytes.trans start.bucketSizeInBytes,
    bytes ▸ rounds.pBuffer.trans start.pBuffer, ?_, laid, ?_,
    fun b other => (rounds.allocs b other).trans (start.allocs b other),
    rounds.tls.trans start.tls, bytes ▸ rounds.heap.trans start.heap⟩
  · rw [rounds.pBufferEnd, start.pBufferEnd, rounds.pBuffer, start.pBuffer, bytes]
  · intro x outside
    have untouched := rounds.mem x
    rw [rounds.pBuffer] at outside
    rw [start.bucketSizeInBytes, Nat.zero_mul, Nat.add_zero] at untouched
    exact (untouched outside).trans (congrFun start.mem x)

/-- The only assertion of `Init` that can fail is the one about the number of buckets. -/
theorem init_failed (sized : scheme.Sized)
    (arguments : InitArguments _bucketsCount _bucketSizeInBytes)
    (fresh : (w.allocs a).bucketsCount = 0) :
    (Allocator.init scheme w a _bucketsCount _bucketSizeInBytes).failed =
      (w.check .initBucketsCount
        (decide (_bucketsCount > 0) && decide (_bucketsCount ≤ maxBucketCount))).failed := by
  rcases init_opened scheme _bucketSizeInBytes fresh arguments.count_pos with ⟨ready, start, opened⟩
  have count : min _bucketsCount maxBucketCount ≤ maxBucketCount := Nat.min_le_right _ _
  rw [opened, initBuckets_failed sized _ _ _ (by omega), start.failed]
  · rw [start.bucketSizeInBytes]
    exact Nat.le_trans (by decide) arguments.aligned.1
  · rw [start.pBuffer]
    by_cases served : w.heap.answer (requestedBytes _bucketsCount _bucketSizeInBytes)
        kMaxValidAlignment = 0
    · rw [served]
      exact Nat.dvd_zero _
    · exact (GenericAllocator.serves_of_answer served).2.2.1
  · rw [start.bucketSizeInBytes]
    exact arguments.aligned.2.2

end SmMalloc
