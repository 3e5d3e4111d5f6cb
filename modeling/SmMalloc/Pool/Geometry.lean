import Mathlib.Tactic.Ring
import SmMalloc.Model.CacheSetup

namespace SmMalloc

open Foundation

/-!
# The layout of an initialised pool

`Pool` is the part of an allocator that never changes after `Init`, together
with the facts that make it a sound layout.  Blocks are named by their offset
in the bucket, which is how the source stores them; the lemmas say that
offsets and addresses determine each other, that distinct blocks are apart,
and that the division of `FindBucket` finds the bucket of every address.
-/

/-- A sound pool layout. -/
structure Pool (scheme : Partitioning) where
  bucketsCount : Nat
  bucketSizeInBytes : Nat
  base : Nat
  sized : scheme.Sized
  count_pos : 0 < bucketsCount
  count_le : bucketsCount ≤ maxBucketCount
  size_le : bucketSizeInBytes ≤ 2 ^ 32
  size_aligned : kMaxValidAlignment ∣ bucketSizeInBytes
  element_le : forall i, i < bucketsCount ->
    scheme.getBucketSizeInBytesByIndex i ≤ bucketSizeInBytes
  base_aligned : kMaxValidAlignment ∣ base
  base_readable : kMaxValidAlignment < base
  end_le : base + bucketsCount * bucketSizeInBytes ≤ 2 ^ 64

namespace Pool

variable {scheme : Partitioning} (pool : Pool scheme)

def elementSize (_pool : Pool scheme) (i : Nat) : Nat := scheme.getBucketSizeInBytesByIndex i

def pData (i : Nat) : Nat := pool.base + i * pool.bucketSizeInBytes

/-- The advertised number of blocks of a bucket. -/
def capacity (i : Nat) : Nat := pool.bucketSizeInBytes / pool.elementSize i

/-- The offsets at which bucket `i` has a block. -/
def IsBlock (i o : Nat) : Prop := ∃ k, k < pool.capacity i ∧ o = k * pool.elementSize i

/-- `FindBucket` -/
def findBucket (p : Nat) : Nat := sizeSub p pool.base / pool.bucketSizeInBytes

/-- The offsets of those of the given addresses that lie in bucket `i`. -/
def offsets (out : List Nat) (i : Nat) : List Nat :=
  out.filterMap (fun p => if pool.findBucket p = i then some (p - pool.pData i) else none)

/-- The allocator object has this layout. -/
structure Represents (alloc : Allocator) : Prop where
  bucketsCount : alloc.bucketsCount = pool.bucketsCount
  bucketSizeInBytes : alloc.bucketSizeInBytes = pool.bucketSizeInBytes
  pBuffer : alloc.pBuffer = pool.base
  pBufferEnd : alloc.pBufferEnd = pool.base + pool.bucketsCount * pool.bucketSizeInBytes + 1
  bucketsDataBegin : alloc.bucketsDataBegin 0 = pool.base
  pData : forall i, i < pool.bucketsCount -> (alloc.buckets i).pData = pool.pData i
  bufferEnd : forall i, i < pool.bucketsCount ->
    (alloc.buckets i).pBufferEnd = pool.pData i + pool.bucketSizeInBytes

variable {pool} {i j o : Nat}

/-! ## Buckets -/

theorem element_pos (bound : i < pool.bucketsCount) : 16 ≤ pool.elementSize i :=
  pool.sized.size_pos i (Nat.lt_of_lt_of_le bound pool.count_le)

theorem size_pos (pool : Pool scheme) : 16 ≤ pool.bucketSizeInBytes :=
  Nat.le_trans (element_pos pool.count_pos) (pool.element_le 0 pool.count_pos)

theorem bucket_end_le (bound : i < pool.bucketsCount) :
    pool.pData i + pool.bucketSizeInBytes ≤
      pool.base + pool.bucketsCount * pool.bucketSizeInBytes := by
  have step := cell_le bound pool.bucketSizeInBytes
  unfold pData
  omega

theorem bucket_end_lt (bound : i < pool.bucketsCount) :
    pool.pData i + pool.bucketSizeInBytes ≤ 2 ^ 64 :=
  Nat.le_trans (bucket_end_le bound) pool.end_le

theorem base_le_pData (pool : Pool scheme) (i : Nat) : pool.base ≤ pool.pData i :=
  Nat.le_add_right _ _

/-- Buckets lie one behind the other. -/
theorem bucket_before (pool : Pool scheme) (before : i < j) :
    pool.pData i + pool.bucketSizeInBytes ≤ pool.pData j := by
  have step := cell_le before pool.bucketSizeInBytes
  unfold pData
  omega

theorem pData_aligned (pool : Pool scheme) (i : Nat) : kMaxValidAlignment ∣ pool.pData i :=
  Nat.dvd_add pool.base_aligned (Dvd.dvd.mul_left pool.size_aligned i)

theorem pData_readable (pool : Pool scheme) (i : Nat) : kMaxValidAlignment < pool.pData i :=
  Nat.lt_of_lt_of_le pool.base_readable (pool.base_le_pData i)

theorem block_readable (pool : Pool scheme) (i o : Nat) : kMaxValidAlignment < pool.pData i + o :=
  Nat.lt_of_lt_of_le (pool.pData_readable i) (Nat.le_add_right _ _)

theorem block_ne_zero (pool : Pool scheme) (i o : Nat) : pool.pData i + o ≠ 0 :=
  Nat.ne_of_gt (Nat.zero_lt_of_lt (pool.block_readable i o))

/-! ## Blocks -/

theorem isBlock_iff (bound : i < pool.bucketsCount) :
    pool.IsBlock i o <-> pool.elementSize i ∣ o ∧ o + pool.elementSize i ≤ pool.bucketSizeInBytes := by
  have positive : 0 < pool.elementSize i := by have := element_pos bound; omega
  constructor
  · rintro ⟨k, inside, rfl⟩
    refine ⟨Dvd.intro_left k rfl, ?_⟩
    exact cell_end_le inside
  · rintro ⟨⟨k, rfl⟩, inside⟩
    refine ⟨k, ?_, Nat.mul_comm _ _⟩
    apply (Nat.le_div_iff_mul_le positive).mpr
    rw [Nat.succ_mul, Nat.mul_comm]
    exact inside

theorem IsBlock.end_le (block : pool.IsBlock i o) (bound : i < pool.bucketsCount) :
    o + pool.elementSize i ≤ pool.bucketSizeInBytes := ((isBlock_iff bound).mp block).2

theorem IsBlock.lt (block : pool.IsBlock i o) (bound : i < pool.bucketsCount) :
    o + 16 ≤ 2 ^ 32 := by
  have fits := block.end_le bound
  have positive := element_pos bound
  have small := pool.size_le
  omega

/-- The 32-bit offset of a block is exact. -/
theorem IsBlock.toNat_ofNat (block : pool.IsBlock i o) (bound : i < pool.bucketsCount) :
    (UInt32.ofNat o).toNat = o := by
  have small := block.lt bound
  rw [UInt32.toNat_ofNat']
  exact Nat.mod_eq_of_lt (by omega)

/-- Distinct blocks of a bucket are a whole element apart. -/
theorem IsBlock.apart {o' : Nat} (block : pool.IsBlock i o) (block' : pool.IsBlock i o')
    (different : o ≠ o') :
    o + pool.elementSize i ≤ o' ∨ o' + pool.elementSize i ≤ o := by
  rcases block with ⟨k, -, rfl⟩
  rcases block' with ⟨k', -, rfl⟩
  exact cells_apart (fun same => different (congrArg (· * pool.elementSize i) same)) _

/-- The bytes of a block belong to no other block. -/
theorem IsBlock.byte_unique {o' x : Nat} (block : pool.IsBlock i o)
    (bound : i < pool.bucketsCount) (low : pool.pData i + o ≤ x)
    (high : x < pool.pData i + o + pool.elementSize i) (block' : pool.IsBlock j o')
    (bound' : j < pool.bucketsCount) (low' : pool.pData j + o' ≤ x)
    (high' : x < pool.pData j + o' + pool.elementSize j) : j = i ∧ o' = o := by
  have fits := block.end_le bound
  have fits' := block'.end_le bound'
  rcases Nat.lt_trichotomy i j with before | same | after
  · have := bucket_before pool before
    omega
  · subst same
    refine ⟨rfl, ?_⟩
    by_contra different
    have := block'.apart block different
    omega
  · have := bucket_before pool after
    omega

/-! ## Addresses -/

/-- An address inside a bucket is found in that bucket. -/
theorem findBucket_of_inside {p : Nat} (bound : i < pool.bucketsCount) (low : pool.pData i ≤ p)
    (high : p < pool.pData i + pool.bucketSizeInBytes) : pool.findBucket p = i := by
  have top := bucket_end_lt bound
  have difference : sizeSub p pool.base = p - pool.base := by
    apply sizeSub_of_le
    · exact Nat.le_trans (pool.base_le_pData i) low
    · omega
  rw [findBucket, difference]
  unfold pData at low high
  apply Nat.div_eq_of_lt_le
  · omega
  · rw [Nat.succ_mul]
    omega

theorem findBucket_pData_add (bound : i < pool.bucketsCount) (inside : o < pool.bucketSizeInBytes) :
    pool.findBucket (pool.pData i + o) = i :=
  findBucket_of_inside bound (Nat.le_add_right _ _) (Nat.add_lt_add_left inside _)

theorem findBucket_block (bound : i < pool.bucketsCount) (block : pool.IsBlock i o) :
    pool.findBucket (pool.pData i + o) = i := by
  apply findBucket_pData_add bound
  have fits := block.end_le bound
  have positive := element_pos bound
  omega

/-- The division finds only addresses that lie in the bucket. -/
theorem inside_of_findBucket {p : Nat} (addressable : p < 2 ^ 64) (bound : i < pool.bucketsCount)
    (found : pool.findBucket p = i) :
    pool.pData i ≤ p ∧ p < pool.pData i + pool.bucketSizeInBytes := by
  have sizePos := pool.size_pos
  have top := bucket_end_lt bound
  have low : i * pool.bucketSizeInBytes ≤ sizeSub p pool.base := by
    rw [← found]
    exact Nat.div_mul_le_self _ _
  have high : sizeSub p pool.base < (i + 1) * pool.bucketSizeInBytes := by
    rw [← found]
    exact Nat.lt_mul_of_div_lt (Nat.lt_succ_self _) (by omega)
  rw [Nat.succ_mul] at high
  unfold sizeSub at low high
  unfold pData at top ⊢
  omega

/-- Addresses outside the buffer are found in no bucket. -/
theorem count_le_findBucket {p : Nat} (addressable : p < 2 ^ 64)
    (outside : p < pool.base ∨ pool.base + pool.bucketsCount * pool.bucketSizeInBytes ≤ p) :
    pool.bucketsCount ≤ pool.findBucket p := by
  by_contra found
  have bound : pool.findBucket p < pool.bucketsCount := Nat.lt_of_not_le found
  have inside := inside_of_findBucket addressable bound rfl
  have low := pool.base_le_pData (pool.findBucket p)
  have high := bucket_end_le bound
  omega

theorem sizeSub_pData (bound : i < pool.bucketsCount) (inside : o < pool.bucketSizeInBytes) :
    sizeSub (pool.pData i + o) (pool.pData i) = o := by
  have top := bucket_end_lt bound
  rw [sizeSub_of_le (Nat.le_add_right _ _) (by omega), Nat.add_sub_cancel_left]

theorem sizeSub_block (bound : i < pool.bucketsCount) (block : pool.IsBlock i o) :
    sizeSub (pool.pData i + o) (pool.pData i) = o := by
  have positive := element_pos bound
  have fits := block.end_le bound
  exact sizeSub_pData bound (by omega)

/-- The offset that the source stores for a block, decoded. -/
theorem offset_of_block (bound : i < pool.bucketsCount) (block : pool.IsBlock i o) :
    (UInt32.ofNat (sizeSub (pool.pData i + o) (pool.pData i))).toNat = o := by
  have fits := block.end_le bound
  have positive := element_pos bound
  rw [sizeSub_pData bound (by omega), block.toNat_ofNat bound]

/-- A link to a block is not the end mark, whatever its tag. -/
theorem ne_invalid_of_block (bound : i < pool.bucketsCount) (block : pool.IsBlock i o)
    {value : TaggedIndex} (named : value.offset.toNat = o) : value ≠ TaggedIndex.invalid := by
  rintro rfl
  have small := block.lt bound
  have allBits : TaggedIndex.invalid.offset.toNat = 2 ^ 32 - 1 := by decide
  omega

/-! ## The allocator object -/

theorem Represents.findBucket {alloc : Allocator} (represents : pool.Represents alloc) (p : Nat) :
    alloc.findBucket p = pool.findBucket p := by
  rw [Allocator.findBucket, represents.bucketsDataBegin, represents.bucketSizeInBytes,
    Pool.findBucket]

/-- The list head and the tag counter are not part of the layout. -/
theorem Represents.setBucket {m : Machine} {a : Nat} {b : PoolBucket}
    (represents : pool.Represents (m.allocs a)) (sameData : b.pData = (m.bucket a i).pData)
    (sameEnd : b.pBufferEnd = (m.bucket a i).pBufferEnd) :
    pool.Represents ((m.setBucket a i b).allocs a) := by
  have alloc : (m.setBucket a i b).allocs a =
      { m.allocs a with buckets := Function.update (m.allocs a).buckets i b } := by
    simp [Machine.setBucket]
  rw [alloc]
  refine ⟨represents.bucketsCount, represents.bucketSizeInBytes, represents.pBuffer,
    represents.pBufferEnd, represents.bucketsDataBegin, ?_, ?_⟩
  · intro j bound
    by_cases same : j = i
    · subst same
      simpa using sameData.trans (represents.pData j bound)
    · simpa [same] using represents.pData j bound
  · intro j bound
    by_cases same : j = i
    · subst same
      simpa using sameEnd.trans (represents.bufferEnd j bound)
    · simpa [same] using represents.bufferEnd j bound

/-! ## Offsets of addresses -/

theorem mem_offsets {out : List Nat} :
    o ∈ pool.offsets out i <-> ∃ p, p ∈ out ∧ pool.findBucket p = i ∧ p - pool.pData i = o := by
  simp only [offsets, List.mem_filterMap]
  refine exists_congr (fun p => ?_)
  by_cases here : pool.findBucket p = i
  · simp [here]
  · simp [here]

theorem offsets_perm {out out' : List Nat} (perm : out.Perm out') :
    (pool.offsets out i).Perm (pool.offsets out' i) := perm.filterMap _

theorem offsets_cons_of_ne {p : Nat} {out : List Nat} (elsewhere : pool.findBucket p ≠ i) :
    pool.offsets (p :: out) i = pool.offsets out i := by
  simp [offsets, elsewhere]

theorem offsets_cons_block {out : List Nat} (bound : i < pool.bucketsCount)
    (block : pool.IsBlock i o) :
    pool.offsets ((pool.pData i + o) :: out) i = o :: pool.offsets out i := by
  simp [offsets, findBucket_block bound block]

theorem offsets_append (first second : List Nat) :
    pool.offsets (first ++ second) i = pool.offsets first i ++ pool.offsets second i := by
  simp [offsets]

end Pool

end SmMalloc
