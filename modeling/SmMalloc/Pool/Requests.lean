import SmMalloc.Pool.Tally
import SmMalloc.Pool.ThreadCache

namespace SmMalloc

open Foundation

/-!
# Requests on a pool that keeps the invariant

A request ends in one of a few ways, and everything that is said about it
later is said about these outcomes.  An allocation takes a block of the
request's own bucket, of an aligned bucket above it if its own has nothing
left, or goes to the fallback heap.  A release hands a block to the thread
cache or to the central list, or goes to the fallback heap.
-/

variable {scheme : Partitioning} {pool : Pool scheme} {m : Machine} {w : World}
variable {a i t o p : Nat} {bytesCount alignment : Nat} {out : List Nat}

/-! ## Pointers that stand for empty blocks -/

theorem isReadable_of_lt (above : kMaxValidAlignment < p) : Allocator.isReadable p = true :=
  decide_eq_true above

theorem not_unreadable (above : kMaxValidAlignment < p) : ¬ Allocator.isReadable p = false := by
  rw [isReadable_of_lt above]
  decide

theorem isReadable_of_le (small : p ≤ kMaxValidAlignment) : Allocator.isReadable p = false :=
  decide_eq_false (Nat.not_lt_of_le small)

/-- A pointer that stands for an empty block is ignored. -/
theorem free_empty (small : p ≤ kMaxValidAlignment) : Allocator.free w a t p = w :=
  if_pos (isReadable_of_le small)

/-- To reallocate an empty block is to allocate. -/
theorem realloc_empty (small : p ≤ kMaxValidAlignment) :
    Allocator.realloc scheme w a t p bytesCount alignment =
      Allocator.alloc scheme w a t bytesCount alignment := if_pos (isReadable_of_le small)

/-- To reallocate a block to nothing is to release it. -/
theorem realloc_zero (above : kMaxValidAlignment < p) :
    Allocator.realloc scheme w a t p 0 alignment = (0, Allocator.free w a t p) := by
  rw [Allocator.realloc, if_neg (not_unreadable above), if_pos rfl]

/-! ## The search for an aligned bucket -/

theorem nextAligned_some {next : Nat} (valid : ValidAlignment alignment) : forall (fuel i : Nat),
    Allocator.nextAligned scheme alignment fuel i = some next ->
      i < next ∧ alignment ∣ scheme.getBucketSizeInBytesByIndex next := by
  intro fuel
  induction fuel with
  | zero => intro i impossible; cases impossible
  | succ fuel ih =>
      intro i found
      unfold Allocator.nextAligned at found
      split at found
      next aligned =>
        cases found
        exact ⟨Nat.lt_succ_self i, (isAligned_iff valid).mp aligned⟩
      next =>
        have later := ih (i + 1) found
        exact ⟨by omega, later.2⟩

/-- An aligned bucket within reach is found. -/
theorem nextAligned_isSome {j : Nat} (valid : ValidAlignment alignment)
    (aligned : alignment ∣ scheme.getBucketSizeInBytesByIndex j) : forall (fuel i : Nat),
    i < j -> j ≤ i + fuel -> (Allocator.nextAligned scheme alignment fuel i).isSome := by
  intro fuel
  induction fuel with
  | zero => intro i above within; omega
  | succ fuel ih =>
      intro i above within
      unfold Allocator.nextAligned
      split
      next => rfl
      next misaligned =>
        apply ih (i + 1) _ (by omega)
        have different : i + 1 ≠ j := by
          rintro rfl
          exact misaligned ((isAligned_iff valid).mpr aligned)
        omega

/-- The fuel of the search is never used up. -/
theorem Partitioning.Sized.nextAligned (sized : scheme.Sized) (bound : i < maxBucketCount)
    (valid : ValidAlignment alignment) :
    ∃ next, Allocator.nextAligned scheme alignment Allocator.alignedSearchSteps i = some next := by
  rcases sized.reach i alignment bound valid with ⟨j, above, within, aligned⟩
  exact Option.isSome_iff_exists.mp (nextAligned_isSome valid aligned _ i above within)

/-! ## Taking from the central lists -/

/-- Thread `t` finds nothing in bucket `i`. -/
structure Exhausted (pool : Pool scheme) (a t i : Nat) (out : List Nat) (m : Machine) : Prop where
  cache : (m.tls t i).getElementsCount = 0
  central : BucketInv pool m a i [] (pool.offsets out i)

/-- The bucket `j` from which a request for bucket `i` may be served. -/
def Suitable (scheme : Partitioning) (alignment i j : Nat) : Prop :=
  j = i ∨ (i < j ∧ alignment ∣ scheme.getBucketSizeInBytesByIndex j)

/-- The loop over the central lists either takes a block, or leaves everything
as it is and has found the first bucket empty. -/
theorem PoolInv.allocateFromCentral (enableStatistic : Bool) {maxBucketIndex : Nat}
    (valid : ValidAlignment alignment) (le : maxBucketIndex ≤ pool.bucketsCount) (t : Nat) :
    forall (rounds i : Nat) (w : World), PoolInv pool a w.toMachine out ->
    let popped := Allocator.allocateFromCentral scheme enableStatistic a alignment maxBucketIndex
      rounds i w
    popped.2.failed = w.failed ∧
      ((popped.1 = 0 ∧ popped.2.toMachine = w.toMachine ∧
          (0 < rounds -> i < maxBucketIndex ->
            BucketInv pool w.toMachine a i [] (pool.offsets out i))) ∨
        ∃ j o, j < maxBucketIndex ∧ Suitable scheme alignment i j ∧
          (j ≠ i -> BucketInv pool w.toMachine a i [] (pool.offsets out i)) ∧
          popped.1 = pool.pData j + o ∧ Taken pool a t j o out w.toMachine popped.2.toMachine) := by
  intro rounds
  induction rounds with
  | zero =>
      intro i w inv
      exact ⟨rfl, Or.inl ⟨rfl, rfl, fun impossible => absurd impossible (Nat.lt_irrefl 0)⟩⟩
  | succ rounds ih =>
      intro i w inv popped
      by_cases inside : i < maxBucketIndex
      · have bound : i < pool.bucketsCount := Nat.lt_of_lt_of_le inside le
        have checked : decide (i < maxBucketCount) = true :=
          decide_eq_true (Nat.lt_of_lt_of_le bound pool.count_le)
        have opened : popped = Allocator.allocateFromCentral scheme enableStatistic a alignment
          maxBucketIndex (rounds + 1) i w := rfl
        simp only [Allocator.allocateFromCentral, if_pos inside, World.check_true w checked]
          at opened
        rcases inv.alloc bound t with ⟨missed, bucket⟩ | ⟨o, address, taken⟩
        · rw [missed] at opened
          simp only [ne_eq, not_true_eq_false, if_false] at opened
          rcases pool.sized.nextAligned (Nat.lt_of_lt_of_le bound pool.count_le) valid with
            ⟨next, found⟩
          have above := nextAligned_some valid _ i found
          rw [found] at opened
          simp only at opened
          rw [opened]
          have later := ih next (w.countBucket enableStatistic a i (fun stats =>
            { stats with missCount := stats.missCount + 1 })) (by simpa using inv)
          simp only [World.countBucket_failed, World.countBucket_toMachine] at later
          refine ⟨later.1, ?_⟩
          rcases later.2 with ⟨zero, same, -⟩ | ⟨j, o, below, suitable, -, address, taken⟩
          · exact Or.inl ⟨zero, same, fun _ _ => bucket⟩
          · refine Or.inr ⟨j, o, below, Or.inr ?_, fun _ => bucket, address, taken⟩
            rcases suitable with rfl | ⟨higher, aligned⟩
            · exact above
            · exact ⟨by omega, aligned⟩
        · have nonzero := pool.block_ne_zero i o
          rw [address, if_pos nonzero] at opened
          rw [opened]
          simp only [World.countBucket_failed, World.countGlobal_failed,
            World.countBucket_toMachine, World.countGlobal_toMachine]
          exact ⟨trivial, Or.inr ⟨i, o, inside, Or.inl rfl, fun other => absurd rfl other, rfl, taken⟩⟩
      · have opened : popped = (0, w) := if_neg inside
        rw [opened]
        exact ⟨rfl, Or.inl ⟨rfl, rfl, fun _ below => absurd below inside⟩⟩

/-! ## Allocation -/

/-- The size class of a request. -/
def requestIndex (scheme : Partitioning) (bytesCount alignment : Nat) : Nat :=
  scheme.getBucketIndexBySize (align bytesCount alignment)

/-- The outcome of a request for at least one byte: a block of a suitable
bucket, or an answer of the fallback heap. -/
inductive Allocated (pool : Pool scheme) (a t bytesCount alignment : Nat) (out : List Nat)
    (m : Machine) : Nat -> Machine -> Prop
  | block {m' : Machine} (j o : Nat) (bound : j < pool.bucketsCount)
      (suitable : Suitable scheme alignment (requestIndex scheme bytesCount alignment) j)
      (exhausted : j ≠ requestIndex scheme bytesCount alignment ->
        Exhausted pool a t (requestIndex scheme bytesCount alignment) out m)
      (taken : Taken pool a t j o out m m') :
      Allocated pool a t bytesCount alignment out m (pool.pData j + o) m'
  | generic (exhausted : requestIndex scheme bytesCount alignment < pool.bucketsCount ->
        Exhausted pool a t (requestIndex scheme bytesCount alignment) out m) :
      Allocated pool a t bytesCount alignment out m (m.heap.answer bytesCount alignment)
        { m with heap := (m.heap.alloc bytesCount alignment).2 }

theorem World.checkBucketIndexBySize_failed {w w' : World} (same : w'.failed = w.failed)
    (scheme : Partitioning) (bytesCount : Nat) :
    (w'.checkBucketIndexBySize scheme bytesCount).failed =
      (w.checkBucketIndexBySize scheme bytesCount).failed := by
  cases scheme <;> simp only [World.checkBucketIndexBySize, World.check] <;>
    first | exact same | (split <;> simp only [same])

/-- The assertions of `Align` hold for valid alignments, wrap-around or not. -/
theorem World.checkAlign_eq (w : World) (val : Nat) (valid : ValidAlignment alignment) :
    w.checkAlign val alignment = w := by
  have powerOfTwo : decide (alignment &&& sizeSub alignment 1 = 0) = true := by
    rw [decide_eq_true_iff, valid.sizeSub_one]
    rcases valid with ⟨k, -, rfl⟩
    rw [Nat.and_two_pow_sub_one_eq_mod, Nat.mod_self]
  have result : isAligned (align val alignment) alignment = true :=
    (isAligned_iff valid).mpr (dvd_align valid)
  simp only [World.checkAlign, World.check_true w powerOfTwo, World.check_true w result]

/-- The cache of the request's own bucket. -/
theorem PoolInv.allocateFromThreadCache (inv : PoolInv pool a w.toMachine out)
    (enableStatistic : Bool) (usable : i < pool.bucketsCount -> w.Usable a i t) :
    let cached := Allocator.allocateFromThreadCache enableStatistic a t i w
    (cached = (0, w) ∧ (i < pool.bucketsCount -> (w.tls t i).getElementsCount = 0)) ∨
      ∃ o, i < pool.bucketsCount ∧ cached.1 = pool.pData i + o ∧
        Taken pool a t i o out w.toMachine cached.2.toMachine ∧ cached.2.failed = w.failed := by
  intro cached
  have opened : cached = Allocator.allocateFromThreadCache enableStatistic a t i w := rfl
  simp only [Allocator.allocateFromThreadCache, inv.represents.bucketsCount] at opened
  by_cases bound : i < pool.bucketsCount
  · rw [if_pos bound] at opened
    rcases inv.allocFromCache (usable bound) with ⟨missed, empty⟩ | ⟨o, address, taken, failed⟩
    · rw [missed] at opened
      exact Or.inl ⟨opened, fun _ => empty⟩
    · have nonzero : (Allocator.allocFromCache w t i).1 ≠ 0 := by
        rw [address]
        exact pool.block_ne_zero _ _
      rw [if_pos nonzero] at opened
      rw [opened]
      refine Or.inr ⟨o, bound, address, ?_, ?_⟩
      · simpa using taken
      · simpa using failed
  · rw [if_neg bound] at opened
    exact Or.inl ⟨opened, fun impossible => absurd impossible bound⟩

theorem allocateFromGeneric_eq (enableStatistic isValidBucket : Bool)
    (a bytesCount alignment : Nat) (w : World) :
    let r := Allocator.allocateFromGeneric enableStatistic isValidBucket a bytesCount alignment w
    r.1 = w.heap.answer bytesCount alignment ∧
      r.2.toMachine = { w.toMachine with heap := (w.heap.alloc bytesCount alignment).2 } ∧
      r.2.failed = w.failed := by
  have same : forall w' : World, w'.toMachine = w.toMachine ->
      (w'.heap.alloc bytesCount alignment).1 = w.heap.answer bytesCount alignment ∧
      { w'.toMachine with heap := (w'.heap.alloc bytesCount alignment).2 } =
        { w.toMachine with heap := (w.heap.alloc bytesCount alignment).2 } := by
    intro w' equal
    rw [equal]
    exact ⟨rfl, rfl⟩
  have counted := same _ (by
    simp : ((w.countGlobal enableStatistic a (fun stats => if isValidBucket then
      { stats with routingReasonSaturation := stats.routingReasonSaturation + 1 }
      else { stats with routingReasonBySize := stats.routingReasonBySize + 1 })).countGlobal
      enableStatistic a (fun stats => { stats with
        totalAllocationsRoutedToDefaultAllocator :=
          stats.totalAllocationsRoutedToDefaultAllocator + 1 })).toMachine = w.toMachine)
  refine ⟨counted.1, counted.2, ?_⟩
  simp [Allocator.allocateFromGeneric]

/-- `Allocate` after its assertions and counters, for at least one byte. -/
theorem allocate_opened (scheme : Partitioning) (enableStatistic : Bool) (w : World) (a t : Nat)
    (valid : ValidAlignment alignment) (positive : bytesCount ≠ 0) :
    ∃ counted : World, counted.toMachine = w.toMachine ∧
      counted.failed = (w.checkBucketIndexBySize scheme (align bytesCount alignment)).failed ∧
      counted.tally a = (w.tally a).enter enableStatistic Tally.attempt ∧
      Allocator.allocate scheme enableStatistic w a t bytesCount alignment =
        let cached := Allocator.allocateFromThreadCache enableStatistic a t
          (requestIndex scheme bytesCount alignment) counted
        if cached.1 ≠ 0 then cached
        else
          let popped := Allocator.allocateFromCentral scheme enableStatistic a alignment
            (min (cached.2.allocs a).bucketsCount
              ((requestIndex scheme bytesCount alignment + 4) % 2 ^ 64)) 4
            (requestIndex scheme bytesCount alignment) cached.2
          if popped.1 ≠ 0 then popped
          else Allocator.allocateFromGeneric enableStatistic
            (requestIndex scheme bytesCount alignment < (cached.2.allocs a).bucketsCount) a
            bytesCount alignment popped.2 := by
  have alignmentFine : decide (alignment ≤ kMaxValidAlignment) = true :=
    decide_eq_true valid.le_max
  refine ⟨(w.countGlobal enableStatistic a (fun stats => { stats with
    totalNumAllocationAttempts := stats.totalNumAllocationAttempts + 1
    })).checkBucketIndexBySize scheme (align bytesCount alignment), by simp,
    World.checkBucketIndexBySize_failed (by simp) scheme _,
    (World.checkBucketIndexBySize_tally _ _).trans World.tally_attempt, ?_⟩
  simp only [Allocator.allocate, World.check_true w alignmentFine,
    if_neg positive, World.checkAlign_eq _ _ valid]
  rfl

/-- `Allocate` for at least one byte. -/
theorem PoolInv.allocate (inv : PoolInv pool a w.toMachine out) (enableStatistic : Bool)
    (valid : ValidAlignment alignment) (positive : bytesCount ≠ 0)
    (usable : requestIndex scheme bytesCount alignment < pool.bucketsCount ->
      w.Usable a (requestIndex scheme bytesCount alignment) t) :
    let r := Allocator.allocate scheme enableStatistic w a t bytesCount alignment
    Allocated pool a t bytesCount alignment out w.toMachine r.1 r.2.toMachine ∧
      r.2.failed = (w.checkBucketIndexBySize scheme (align bytesCount alignment)).failed := by
  intro r
  rcases allocate_opened scheme enableStatistic w a t valid positive with
    ⟨counted, sameMachine, sameFailed, -, opened⟩
  change r = _ at opened
  rw [← sameMachine] at inv usable ⊢
  rw [← sameFailed]
  rcases inv.allocateFromThreadCache enableStatistic usable with
    ⟨missed, empty⟩ | ⟨o, bound, address, taken, failed⟩
  · rw [missed] at opened
    simp only [ne_eq, not_true_eq_false, if_false, inv.represents.bucketsCount] at opened
    have central := PoolInv.allocateFromCentral enableStatistic valid
      (Nat.min_le_left pool.bucketsCount ((requestIndex scheme bytesCount alignment + 4) % 2 ^ 64))
      t 4 (requestIndex scheme bytesCount alignment) counted inv
    have exhausted : (requestIndex scheme bytesCount alignment < pool.bucketsCount ->
        BucketInv pool counted.toMachine a (requestIndex scheme bytesCount alignment) []
          (pool.offsets out (requestIndex scheme bytesCount alignment))) ->
        requestIndex scheme bytesCount alignment < pool.bucketsCount ->
        Exhausted pool a t (requestIndex scheme bytesCount alignment) out counted.toMachine :=
      fun bucket bound => ⟨empty bound, bucket bound⟩
    rcases central with
      ⟨failed, ⟨zero, same, bucket⟩ | ⟨j, o, below, suitable, bucket, address, taken⟩⟩
    · simp only [zero, not_true_eq_false, if_false] at opened
      have answered := allocateFromGeneric_eq enableStatistic
        (decide (requestIndex scheme bytesCount alignment < pool.bucketsCount)) a bytesCount alignment
        (Allocator.allocateFromCentral scheme enableStatistic a alignment (min pool.bucketsCount
          ((requestIndex scheme bytesCount alignment + 4) % 2 ^ 64)) 4
          (requestIndex scheme bytesCount alignment) counted).2
      rw [opened, answered.1, answered.2.1, same]
      refine ⟨Allocated.generic (exhausted ?_), answered.2.2.trans failed⟩
      intro bound
      have small := pool.count_le
      unfold maxBucketCount at small
      apply bucket (by decide)
      omega
    · have bound : j < pool.bucketsCount := Nat.lt_of_lt_of_le below (Nat.min_le_left _ _)
      have nonzero : (Allocator.allocateFromCentral scheme enableStatistic a alignment
          (min pool.bucketsCount ((requestIndex scheme bytesCount alignment + 4) % 2 ^ 64)) 4
          (requestIndex scheme bytesCount alignment) counted).1 ≠ 0 := by
        rw [address]
        exact pool.block_ne_zero _ _
      have served := opened.trans (if_pos nonzero)
      rw [served, address]
      refine ⟨Allocated.block j o bound suitable (fun other => ?_) taken, failed⟩
      rcases suitable with same | ⟨above, -⟩
      · exact absurd same other
      · exact exhausted (fun _ => bucket other) (Nat.lt_trans above bound)
  · have nonzero : (Allocator.allocateFromThreadCache enableStatistic a t
        (requestIndex scheme bytesCount alignment) counted).1 ≠ 0 := by
      rw [address]
      exact pool.block_ne_zero _ _
    have served : r = Allocator.allocateFromThreadCache enableStatistic a t
        (requestIndex scheme bytesCount alignment) counted := by
      rw [opened]
      exact if_pos nonzero
    rw [served, address]
    exact ⟨Allocated.block _ o bound (Or.inl rfl) (fun other => absurd rfl other) taken, failed⟩

/-! ## What an allocation guarantees -/

/-- A suitable bucket has blocks of sufficient size and alignment.  When the
rounded size wraps around to zero, no bucket is suitable. -/
theorem Suitable.fits {j : Nat} (sized : scheme.Sized) (positive : 0 < bytesCount)
    (bound : bytesCount < 2 ^ 64) (valid : ValidAlignment alignment) (inside : j < maxBucketCount)
    (suitable : Suitable scheme alignment (requestIndex scheme bytesCount alignment) j) :
    bytesCount ≤ scheme.getBucketSizeInBytesByIndex j ∧
      alignment ∣ scheme.getBucketSizeInBytesByIndex j := by
  have le : requestIndex scheme bytesCount alignment ≤ j := by
    rcases suitable with same | ⟨above, -⟩
    · exact Nat.le_of_eq same.symm
    · exact Nat.le_of_lt above
  have indexInside := Nat.lt_of_le_of_lt le inside
  by_cases wraps : 2 ^ 64 < bytesCount + alignment
  · unfold requestIndex at indexInside
    rw [align_of_wrap valid bound wraps] at indexInside
    exact absurd sized.zero_index (Nat.not_le_of_lt indexInside)
  · have atLeast := le_align valid positive (Nat.le_of_not_lt wraps)
    have alignPositive : 0 < align bytesCount alignment := Nat.lt_of_lt_of_le positive atLeast
    have fits := sized.fits _ alignPositive (align_lt valid) indexInside
    have divides := sized.index_dvd _ alignment alignPositive (align_lt valid) valid
      (dvd_align valid) indexInside
    have larger := sized.size_mono _ j le inside
    refine ⟨Nat.le_trans atLeast (Nat.le_trans fits larger), ?_⟩
    rcases suitable with same | ⟨-, aligned⟩
    · rw [same]
      exact divides
    · exact aligned

/-- The blocks of a suitable bucket are aligned as requested. -/
theorem aligned_block {j : Nat} (valid : ValidAlignment alignment) (block : pool.IsBlock j o)
    (divides : alignment ∣ pool.elementSize j) : alignment ∣ pool.pData j + o := by
  apply Nat.dvd_add (Dvd.dvd.trans valid.dvd_max (pool.pData_aligned j))
  rcases block with ⟨k, -, rfl⟩
  exact Dvd.dvd.mul_left divides k

namespace GenericAllocator

variable {heap : GenericAllocator} {r : Region}

theorem serves_of_answer (answered : heap.answer bytesCount alignment ≠ 0) :
    heap.Serves bytesCount alignment (heap.answer bytesCount alignment) := by
  unfold answer at answered ⊢
  split at answered
  next serves =>
    rw [if_pos serves]
    exact serves
  next => exact absurd rfl answered

theorem mem_alloc (member : r ∈ heap.live) : r ∈ (heap.alloc bytesCount alignment).2.live := by
  simp only [alloc]
  split
  · exact member
  · exact List.mem_cons_of_mem _ member

/-- A live block is as large after a request as before. -/
theorem getUsableSpace_alloc (p : Nat) : heap.getUsableSpace p ≤
    (heap.alloc bytesCount alignment).2.getUsableSpace p := by
  by_cases refused : heap.answer bytesCount alignment = 0
  · have same : (heap.alloc bytesCount alignment).2.live = heap.live := if_pos refused
    rw [getUsableSpace, getUsableSpace, same]
  have live : (heap.alloc bytesCount alignment).2.live =
      ⟨heap.answer bytesCount alignment, bytesCount⟩ :: heap.live := if_neg refused
  rw [getUsableSpace, getUsableSpace, live]
  by_cases here : heap.answer bytesCount alignment = p
  · cases found : heap.live.find? (fun r => r.base == p) with
    | none => exact Nat.zero_le _
    | some r =>
        have apart := (serves_of_answer refused).2.2.2.2 r (List.mem_of_find?_eq_some found)
        have base : r.base = p := by simpa using List.find?_some found
        unfold Region.Apart at apart
        simp only [here, base] at apart
        omega
  · rw [List.find?_cons_of_neg (by simpa using here)]

theorem mem_free (member : r ∈ heap.live) (other : r.base ≠ p) : r ∈ (heap.free p).live := by
  unfold free
  split
  · exact member
  · exact List.mem_filter.mpr ⟨member, by simpa using other⟩

end GenericAllocator

/-- The fallback heap never answers with an address in the pool. -/
theorem PoolInv.answer_elsewhere (inv : PoolInv pool a m out) (positive : 0 < bytesCount) :
    pool.bucketsCount ≤ pool.findBucket (m.heap.answer bytesCount alignment) := by
  have readable := pool.base_readable
  apply Pool.count_le_findBucket
  · by_cases answered : m.heap.answer bytesCount alignment = 0
    · omega
    · have serves := GenericAllocator.serves_of_answer answered
      have addressable := serves.2.1
      omega
  · by_cases answered : m.heap.answer bytesCount alignment = 0
    · left; omega
    · have apart := (GenericAllocator.serves_of_answer answered).2.2.2.2 _ inv.buffer
      unfold Region.Apart at apart
      simp only at apart
      omega

/-- Whatever an allocation returns is outside afterwards. -/
theorem Allocated.inv {m' : Machine} (inv : PoolInv pool a m out) (positive : 0 < bytesCount)
    (allocated : Allocated pool a t bytesCount alignment out m p m') :
    PoolInv pool a m' (p :: out) := by
  cases allocated with
  | block j o _ _ _ taken => exact taken.inv
  | generic =>
      apply PoolInv.cons_elsewhere
      · exact inv.of_heap (GenericAllocator.mem_alloc inv.buffer)
      · exact inv.answer_elsewhere positive

theorem Allocated.confined {m' : Machine}
    (allocated : Allocated pool a t bytesCount alignment out m p m') :
    Confined pool a t out m m' ∧ m'.mem = m.mem := by
  cases allocated with
  | block j o _ _ _ taken => exact ⟨taken.confined, taken.mem⟩
  | generic => exact ⟨Confined.of_mem_eq (fun _ _ => rfl) (fun _ _ => rfl) rfl, rfl⟩

theorem Allocated.slots {m' : Machine}
    (allocated : Allocated pool a t bytesCount alignment out m p m') :
    forall j, (m.tls t j).Kept (m'.tls t j) := by
  cases allocated with
  | block j o _ _ _ taken => exact taken.slots
  | generic => exact fun _ => TlsPoolBucket.Kept.refl _

theorem Allocated.space {m' : Machine}
    (allocated : Allocated pool a t bytesCount alignment out m p m') (q : Nat) :
    m.heap.getUsableSpace q ≤ m'.heap.getUsableSpace q := by
  cases allocated with
  | block j o _ _ _ taken => exact Nat.le_of_eq (by rw [taken.heap])
  | generic => exact GenericAllocator.getUsableSpace_alloc q

/-! ## Release -/

/-- `Free` of a block of the pool counts it and offers it to the thread's cache. -/
theorem PoolInv.free_block_eq (inv : PoolInv pool a w.toMachine out)
    (bound : i < pool.bucketsCount) (block : pool.IsBlock i o) :
    ∃ counted : World, counted.toMachine = w.toMachine ∧ counted.failed = w.failed ∧
      counted.faults = w.faults ∧ Allocator.free w a t (pool.pData i + o) =
        let released := Allocator.releaseToCache true counted t i (pool.pData i + o)
        if released.1 then released.2
        else
          { released.2 with
            toMachine := PoolBucket.freeInterval released.2.toMachine a i (pool.pData i + o)
              (pool.pData i + o) } := by
  refine ⟨w.countBucket true a i (fun stats => { stats with freeCount := stats.freeCount + 1 }),
    by simp, by simp, by simp, ?_⟩
  simp only [Allocator.free, if_neg (not_unreadable (pool.block_readable i o)),
    inv.represents.findBucket, Pool.findBucket_block bound block, inv.represents.bucketsCount,
    if_pos bound]

/-- A release to the pool: to the thread's cache, or to the central list. -/
theorem PoolInv.free_block (inv : PoolInv pool a w.toMachine ((pool.pData i + o) :: out))
    (bound : i < pool.bucketsCount) (block : pool.IsBlock i o) (accepting : w.Accepting a i t) :
    Released pool a t out w.toMachine (Allocator.free w a t (pool.pData i + o)).toMachine ∧
      (Allocator.free w a t (pool.pData i + o)).failed = w.failed := by
  rcases inv.free_block_eq bound block (t := t) with
    ⟨counted, sameMachine, sameFailed, -, opened⟩
  rw [← sameMachine] at inv accepting ⊢
  rw [← sameFailed, opened]
  rcases inv.releaseToCache block accepting true with ⟨refused, -⟩ | ⟨accepted, released, failed⟩
  · rw [refused]
    have attached := inv.freeInterval bound block t
    exact ⟨⟨attached.1, attached.2, fun _ => TlsPoolBucket.Kept.refl _, rfl⟩, rfl⟩
  · simp only [if_pos accepted]
    exact ⟨released, failed⟩

/-- A release of anything else goes to the fallback heap. -/
theorem PoolInv.free_generic (inv : PoolInv pool a w.toMachine out)
    (readable : kMaxValidAlignment < p) (elsewhere : pool.bucketsCount ≤ pool.findBucket p) :
    Allocator.free w a t p = { w with heap := w.heap.free p } := by
  have outside : ¬ pool.findBucket p < pool.bucketsCount := by omega
  simp only [Allocator.free, if_neg (not_unreadable readable), inv.represents.findBucket,
    inv.represents.bucketsCount, if_neg outside]

theorem PoolInv.heap_free (inv : PoolInv pool a m (p :: out))
    (elsewhere : pool.bucketsCount ≤ pool.findBucket p) :
    PoolInv pool a { m with heap := m.heap.free p } out := by
  apply (inv.of_cons_elsewhere elsewhere).of_heap
  apply GenericAllocator.mem_free inv.buffer
  rintro (rfl : pool.base = p)
  have first := Pool.findBucket_pData_add (o := 0) pool.count_pos
    (Nat.lt_of_lt_of_le (by decide) pool.size_pos)
  have base : pool.pData 0 + 0 = pool.base := by simp [Pool.pData]
  rw [base] at first
  have positive := pool.count_pos
  omega

/-! ## Reallocation, by where the block is -/

/-- `Realloc` of a block of the pool. -/
theorem realloc_inside (above : kMaxValidAlignment < p) (positive : bytesCount ≠ 0)
    (inside : (w.allocs a).findBucket p < (w.allocs a).bucketsCount) :
    Allocator.realloc scheme w a t p bytesCount alignment =
      let elementSize := scheme.getBucketSizeInBytesByIndex ((w.allocs a).findBucket p)
      let allocated := Allocator.alloc scheme w a t bytesCount alignment
      if bytesCount ≤ elementSize then (p, w)
      else if allocated.1 = 0 then (0, allocated.2)
      else
        (allocated.1,
          Allocator.free (Allocator.memmove allocated.2 allocated.1 p elementSize) a t p) := by
  simp only [Allocator.realloc, isReadable_of_lt above, Bool.true_eq_false, if_false,
    if_neg positive, if_pos inside, if_true]

/-- `Realloc` of any other block, after its assertions. -/
theorem realloc_outside (above : kMaxValidAlignment < p) (positive : bytesCount ≠ 0)
    (valid : ValidAlignment alignment)
    (outside : ¬ (w.allocs a).findBucket p < (w.allocs a).bucketsCount) :
    ∃ checked : World,
      checked = w.checkBucketIndexBySize scheme (align bytesCount alignment) ∧
      checked.toMachine = w.toMachine ∧ checked.faults = w.faults ∧
      checked.tally a = w.tally a ∧
      Allocator.realloc scheme w a t p bytesCount alignment =
        let allocated := Allocator.alloc scheme checked a t bytesCount alignment
        let moved := Allocator.memmove allocated.2 allocated.1 p
          (min (allocated.2.heap.getUsableSpace p) bytesCount)
        if requestIndex scheme bytesCount alignment < (w.allocs a).bucketsCount then
          (allocated.1, { moved with heap := moved.heap.free p })
        else Allocator.genericRealloc checked p bytesCount alignment := by
  refine ⟨_, rfl, by simp, by simp, by simp, ?_⟩
  simp only [Allocator.realloc, isReadable_of_lt above, Bool.true_eq_false, if_false,
    if_neg positive, if_neg outside, World.checkAlign_eq _ _ valid, if_true,
    World.checkBucketIndexBySize_toMachine, World.check_true _ rfl]
  rfl

end SmMalloc
