import SmMalloc.Foundation.PowerOfTwo

namespace SmMalloc

/-!
# Sizes, alignments and size classes

The size arithmetic is that of a 64-bit `size_t`: values are natural numbers
below `2 ^ 64`, and the places where the source can wrap around say so with
`% 2 ^ 64`.  The partitioning scheme is a compile-time choice of the source
(`SMM_LINEAR_PARTITIONING`, `SMM_FLOAT_PARTITIONING`, `SMM_PL_PARTITIONING`);
here it is a parameter of everything that depends on it.  `piecewise` is the
scheme that the source selects when the build says nothing.
-/

/-- `SMM_MAX_BUCKET_COUNT` -/
def maxBucketCount : Nat := 62

/-- `SMM_MAX_CACHE_ITEMS_COUNT`, on a 64-bit build -/
def maxCacheItemsCount : Nat := 7

/-- `SMM_CACHE_LINE_SIZE` -/
def cacheLineSize : Nat := 64

def kMinValidAlignment : Nat := 4

def kMaxValidAlignment : Nat := 4096

def kDefaultTlsCacheAlignment : Nat := kMinValidAlignment

/-- Unsigned subtraction of `size_t`. -/
def sizeSub (a b : Nat) : Nat := (a + 2 ^ 64 - b) % 2 ^ 64

inductive Partitioning
  | linear
  | float
  | piecewise
  deriving DecidableEq, Repr

namespace SmallFloat

/-- `__builtin_clz` of a nonzero `uint32_t` -/
def lzcntNonzero (v : Nat) : Nat := 31 - Nat.log2 v

def uintToFloatRoundUp (size : Nat) : Nat :=
  if size < 4 then size
  else
    let leadingZeros := lzcntNonzero size
    let highestSetBit := 31 - leadingZeros
    let mantissaStartBit := highestSetBit - 2
    let exp := mantissaStartBit + 1
    let mantissa := (size >>> mantissaStartBit) &&& 3
    let lowBitsMask := 1 <<< mantissaStartBit - 1
    let mantissa := if size &&& lowBitsMask ≠ 0 then mantissa + 1 else mantissa
    exp <<< 2 + mantissa

def floatToUint (floatValue : Nat) : Nat :=
  let exponent := floatValue >>> 2
  let mantissa := floatValue &&& 3
  if exponent = 0 then mantissa else ((mantissa ||| 4) <<< (exponent - 1)) % 2 ^ 32

end SmallFloat

def isAligned (v alignment : Nat) : Bool :=
  v &&& sizeSub alignment 1 == 0

def align (val alignment : Nat) : Nat :=
  ((val + sizeSub alignment 1) % 2 ^ 64) &&& (2 ^ 64 - 1 - sizeSub alignment 1)

namespace Partitioning

def getBucketIndexBySize (scheme : Partitioning) (bytesCount : Nat) : Nat :=
  match scheme with
  | linear => sizeSub bytesCount 1 >>> 4
  | float =>
      let bucketIndex := SmallFloat.uintToFloatRoundUp (bytesCount % 2 ^ 32)
      if bucketIndex < 12 then 0 else bucketIndex - 12
  | piecewise =>
      let size := sizeSub bytesCount 1
      let p0 := size >>> 4
      let p1 := 7 + size >>> 7
      let p2 := 13 + size >>> 9
      if size ≤ 127 then p0 else if size > 1023 then p2 else p1

def getBucketSizeInBytesByIndex (scheme : Partitioning) (bucketIndex : Nat) : Nat :=
  match scheme with
  | linear => (16 + bucketIndex * 16) % 2 ^ 64
  | float => SmallFloat.floatToUint ((bucketIndex + 12) % 2 ^ 32)
  | piecewise =>
      let p0 := ((bucketIndex + 1) <<< 4) % 2 ^ 64
      let p1 := (sizeSub bucketIndex 6 <<< 7) % 2 ^ 64
      let p2 := (sizeSub bucketIndex 12 <<< 9) % 2 ^ 64
      if bucketIndex ≤ 7 then p0 else if bucketIndex > 14 then p2 else p1

end Partitioning

/-! ## Alignment -/

/-- The alignments that a client may ask for: powers of two up to `kMaxValidAlignment`. -/
def ValidAlignment (alignment : Nat) : Prop := ∃ k, k ≤ 12 ∧ alignment = 2 ^ k

theorem ValidAlignment.pos {alignment : Nat} (valid : ValidAlignment alignment) : 0 < alignment := by
  rcases valid with ⟨k, -, rfl⟩
  exact Nat.two_pow_pos k

theorem ValidAlignment.dvd_max {alignment : Nat} (valid : ValidAlignment alignment) :
    alignment ∣ kMaxValidAlignment := by
  rcases valid with ⟨k, small, rfl⟩
  exact pow_dvd_pow 2 small

theorem ValidAlignment.le_max {alignment : Nat} (valid : ValidAlignment alignment) :
    alignment ≤ kMaxValidAlignment :=
  Nat.le_of_dvd (by decide) valid.dvd_max

theorem sizeSub_of_le {a b : Nat} (le : b ≤ a) (bound : a < 2 ^ 64) : sizeSub a b = a - b := by
  unfold sizeSub
  omega

theorem ValidAlignment.sizeSub_one {alignment : Nat} (valid : ValidAlignment alignment) :
    sizeSub alignment 1 = alignment - 1 := by
  have bound : alignment ≤ 4096 := valid.le_max
  exact sizeSub_of_le valid.pos (by omega)

theorem isAligned_iff {v alignment : Nat} (valid : ValidAlignment alignment) :
    isAligned v alignment = true <-> alignment ∣ v := by
  have sub := valid.sizeSub_one
  rcases valid with ⟨k, small, rfl⟩
  rw [isAligned, sub, Nat.and_two_pow_sub_one_eq_mod, beq_iff_eq, Nat.dvd_iff_mod_eq_zero]

/-- What the mask arithmetic of `Align` computes, wrap-around included. -/
theorem align_eq {val alignment : Nat} (valid : ValidAlignment alignment) :
    align val alignment = (val + (alignment - 1)) % 2 ^ 64 / alignment * alignment := by
  have sub := valid.sizeSub_one
  rcases valid with ⟨k, small, rfl⟩
  rw [align, sub]
  exact Foundation.and_high_bits (by omega) (Nat.mod_lt _ (by decide))

theorem dvd_align {val alignment : Nat} (valid : ValidAlignment alignment) :
    alignment ∣ align val alignment := by
  rw [align_eq valid]
  exact Dvd.intro_left _ rfl

theorem align_lt {val alignment : Nat} (valid : ValidAlignment alignment) :
    align val alignment < 2 ^ 64 := by
  rw [align_eq valid]
  exact Nat.lt_of_le_of_lt (Nat.div_mul_le_self _ _) (Nat.mod_lt _ (by decide))

/-- Without wrap-around, `Align` is the rounding up of ordinary arithmetic. -/
theorem align_eq_roundUp {val alignment : Nat} (valid : ValidAlignment alignment)
    (positive : 0 < val) (bound : val + alignment ≤ 2 ^ 64) :
    align val alignment = Foundation.roundUp val alignment := by
  have alignmentPos := valid.pos
  rw [align_eq valid, Nat.mod_eq_of_lt (by omega), Foundation.roundUp]
  have shifted : val + (alignment - 1) = val - 1 + alignment := by omega
  rw [shifted, Nat.add_div_right _ alignmentPos]

/-- With wrap-around, `Align` returns zero. -/
theorem align_of_wrap {val alignment : Nat} (valid : ValidAlignment alignment)
    (valBound : val < 2 ^ 64) (wraps : 2 ^ 64 < val + alignment) : align val alignment = 0 := by
  have alignmentPos := valid.pos
  have alignmentMax : alignment ≤ 4096 := valid.le_max
  have remainder : (val + (alignment - 1)) % 2 ^ 64 < alignment := by omega
  rw [align_eq valid, Nat.div_eq_of_lt remainder, Nat.zero_mul]

theorem le_align {val alignment : Nat} (valid : ValidAlignment alignment)
    (positive : 0 < val) (bound : val + alignment ≤ 2 ^ 64) : val ≤ align val alignment := by
  rw [align_eq_roundUp valid positive bound]
  exact Foundation.le_roundUp val valid.pos

/-! ## What the size classes guarantee -/

/-- The facts about a partitioning scheme on which the allocator relies.
`reach` is the termination argument of the search for an aligned bucket. -/
structure Partitioning.Sized (scheme : Partitioning) : Prop where
  size_pos : forall i, i < maxBucketCount -> 16 ≤ scheme.getBucketSizeInBytesByIndex i
  size_le : forall i, i < maxBucketCount -> scheme.getBucketSizeInBytesByIndex i ≤ 2 ^ 20
  size_dvd : forall i, i < maxBucketCount ->
    kMinValidAlignment ∣ scheme.getBucketSizeInBytesByIndex i
  size_mono : forall i j, i ≤ j -> j < maxBucketCount ->
    scheme.getBucketSizeInBytesByIndex i ≤ scheme.getBucketSizeInBytesByIndex j
  fits : forall n, 0 < n -> n < 2 ^ 64 -> scheme.getBucketIndexBySize n < maxBucketCount ->
    n ≤ scheme.getBucketSizeInBytesByIndex (scheme.getBucketIndexBySize n)
  zero_index : maxBucketCount ≤ scheme.getBucketIndexBySize 0
  index_size : forall i, i < maxBucketCount ->
    scheme.getBucketIndexBySize (scheme.getBucketSizeInBytesByIndex i) = i
  index_dvd : forall n alignment, 0 < n -> n < 2 ^ 64 -> ValidAlignment alignment ->
    alignment ∣ n -> scheme.getBucketIndexBySize n < maxBucketCount ->
    alignment ∣ scheme.getBucketSizeInBytesByIndex (scheme.getBucketIndexBySize n)
  reach : forall i alignment, i < maxBucketCount -> ValidAlignment alignment ->
    ∃ j, i < j ∧ j ≤ i + 256 ∧ alignment ∣ scheme.getBucketSizeInBytesByIndex j

namespace Partitioning

theorem linear_size {i : Nat} (bound : i < 2 ^ 60 - 1) :
    linear.getBucketSizeInBytesByIndex i = 16 * (i + 1) := by
  simp only [getBucketSizeInBytesByIndex]
  omega

theorem linear_index {n : Nat} (positive : 0 < n) (bound : n < 2 ^ 64) :
    linear.getBucketIndexBySize n = (n - 1) / 16 := by
  simp only [getBucketIndexBySize, sizeSub_of_le positive bound, Nat.shiftRight_eq_div_pow]

/-- The chosen class of the linear scheme is the size rounded up to 16. -/
theorem linear_size_index {n : Nat} (positive : 0 < n) (bound : n < 2 ^ 64)
    (inside : linear.getBucketIndexBySize n < maxBucketCount) :
    linear.getBucketSizeInBytesByIndex (linear.getBucketIndexBySize n) =
      Foundation.roundUp n (2 ^ 4) := by
  unfold maxBucketCount at inside
  rw [linear_size (by omega), linear_index positive bound, Foundation.roundUp]
  omega

theorem piecewise_size_low {i : Nat} (low : i ≤ 7) :
    piecewise.getBucketSizeInBytesByIndex i = 16 * (i + 1) := by
  simp only [getBucketSizeInBytesByIndex, if_pos low, Nat.shiftLeft_eq]
  omega

theorem piecewise_size_mid {i : Nat} (above : 7 < i) (mid : i ≤ 14) :
    piecewise.getBucketSizeInBytesByIndex i = 128 * (i - 6) := by
  have notLow : ¬ i ≤ 7 := by omega
  have notHigh : ¬ i > 14 := by omega
  simp only [getBucketSizeInBytesByIndex, if_neg notLow, if_neg notHigh, Nat.shiftLeft_eq]
  rw [sizeSub_of_le (by omega) (by omega)]
  omega

theorem piecewise_size_high {i : Nat} (high : 14 < i) (bound : i < 2 ^ 55 + 12) :
    piecewise.getBucketSizeInBytesByIndex i = 512 * (i - 12) := by
  have notLow : ¬ i ≤ 7 := by omega
  simp only [getBucketSizeInBytesByIndex, if_neg notLow, if_pos high, Nat.shiftLeft_eq]
  rw [sizeSub_of_le (by omega) (by omega)]
  omega

theorem piecewise_index_low {n : Nat} (positive : 0 < n) (low : n ≤ 128) :
    piecewise.getBucketIndexBySize n = (n - 1) / 16 := by
  have isLow : n - 1 ≤ 127 := by omega
  simp only [getBucketIndexBySize, sizeSub_of_le positive (by omega : n < 2 ^ 64), if_pos isLow,
    Nat.shiftRight_eq_div_pow]

theorem piecewise_index_mid {n : Nat} (above : 128 < n) (mid : n ≤ 1024) :
    piecewise.getBucketIndexBySize n = 7 + (n - 1) / 128 := by
  have notLow : ¬ n - 1 ≤ 127 := by omega
  have notHigh : ¬ n - 1 > 1023 := by omega
  simp only [getBucketIndexBySize, sizeSub_of_le (by omega : 1 ≤ n) (by omega : n < 2 ^ 64),
    if_neg notLow, if_neg notHigh, Nat.shiftRight_eq_div_pow]

theorem piecewise_index_high {n : Nat} (high : 1024 < n) (bound : n < 2 ^ 64) :
    piecewise.getBucketIndexBySize n = 13 + (n - 1) / 512 := by
  have notLow : ¬ n - 1 ≤ 127 := by omega
  have isHigh : n - 1 > 1023 := by omega
  simp only [getBucketIndexBySize, sizeSub_of_le (by omega : 1 ≤ n) bound, if_neg notLow,
    if_pos isHigh, Nat.shiftRight_eq_div_pow]

/-- The chosen class of the piecewise scheme is the size rounded up to the
granularity of its piece. -/
theorem piecewise_size_index {n : Nat} (positive : 0 < n) (bound : n < 2 ^ 64)
    (inside : piecewise.getBucketIndexBySize n < maxBucketCount) :
    ∃ a, piecewise.getBucketSizeInBytesByIndex (piecewise.getBucketIndexBySize n) =
      Foundation.roundUp n (2 ^ a) := by
  unfold maxBucketCount at inside
  by_cases low : n ≤ 128
  · refine ⟨4, ?_⟩
    rw [piecewise_index_low positive low, piecewise_size_low (by omega), Foundation.roundUp]
    omega
  by_cases mid : n ≤ 1024
  · refine ⟨7, ?_⟩
    rw [piecewise_index_mid (by omega) mid, piecewise_size_mid (by omega) (by omega),
      Foundation.roundUp]
    omega
  · refine ⟨9, ?_⟩
    rw [piecewise_index_high (by omega) bound] at inside ⊢
    rw [piecewise_size_high (by omega) (by omega), Foundation.roundUp]
    omega

theorem linear_sized : linear.Sized where
  size_pos := by
    intro i bound
    unfold maxBucketCount at bound
    rw [linear_size (by omega)]
    omega
  size_le := by
    intro i bound
    unfold maxBucketCount at bound
    rw [linear_size (by omega)]
    omega
  size_dvd := by
    intro i bound
    unfold maxBucketCount at bound
    rw [linear_size (by omega)]
    exact ⟨4 * (i + 1), by unfold kMinValidAlignment; omega⟩
  size_mono := by
    intro i j le bound
    unfold maxBucketCount at bound
    rw [linear_size (by omega), linear_size (by omega)]
    omega
  fits := by
    intro n positive bound inside
    rw [linear_size_index positive bound inside]
    exact Foundation.le_roundUp n (by decide)
  zero_index := by decide
  index_size := by
    intro i bound
    unfold maxBucketCount at bound
    rw [linear_size (by omega), linear_index (by omega) (by omega)]
    omega
  index_dvd := by
    rintro n alignment positive bound ⟨k, -, rfl⟩ divides inside
    rw [linear_size_index positive bound inside]
    exact Foundation.dvd_roundUp_of_dvd positive divides
  reach := by
    intro i alignment bound valid
    unfold maxBucketCount at bound
    -- 256 classes further up there is always a whole multiple of a page
    refine ⟨i / 256 * 256 + 255 + if i % 256 = 255 then 256 else 0, ?_, ?_, ?_⟩
    · split <;> omega
    · split <;> omega
    · apply Dvd.dvd.trans valid.dvd_max
      have isLow : ¬ i % 256 = 255 := by omega
      rw [if_neg isLow, linear_size (by omega)]
      exact ⟨i / 256 + 1, by unfold kMaxValidAlignment; omega⟩

theorem piecewise_sized : piecewise.Sized where
  size_pos := by decide
  size_le := by decide
  size_dvd := by decide
  size_mono := by
    intro i j le bound
    have table : forall j, j < maxBucketCount -> forall i, i < maxBucketCount -> i ≤ j ->
        piecewise.getBucketSizeInBytesByIndex i ≤ piecewise.getBucketSizeInBytesByIndex j := by
      decide
    exact table j bound i (by omega) le
  fits := by
    intro n positive bound inside
    rcases piecewise_size_index positive bound inside with ⟨a, size⟩
    rw [size]
    exact Foundation.le_roundUp n (Nat.two_pow_pos a)
  zero_index := by decide
  index_size := by decide
  index_dvd := by
    rintro n alignment positive bound ⟨k, -, rfl⟩ divides inside
    rcases piecewise_size_index positive bound inside with ⟨a, size⟩
    rw [size]
    exact Foundation.dvd_roundUp_of_dvd positive divides
  reach := by
    intro i alignment bound valid
    unfold maxBucketCount at bound
    -- class 20 is the first whole page, and every eighth class after it is one
    by_cases low : i < 20
    · exact ⟨20, low, by omega, Dvd.dvd.trans valid.dvd_max (by decide)⟩
    · refine ⟨i / 8 * 8 + if i % 8 < 4 then 4 else 12, ?_, ?_, ?_⟩
      · split <;> omega
      · split <;> omega
      · apply Dvd.dvd.trans valid.dvd_max
        unfold kMaxValidAlignment
        split
        · rw [piecewise_size_high (by omega) (by omega)]
          exact ⟨i / 8 - 1, by omega⟩
        · rw [piecewise_size_high (by omega) (by omega)]
          exact ⟨i / 8, by omega⟩

/-- Every class of every scheme has room for a link. -/
theorem size_pos (scheme : Partitioning) {i : Nat} (bound : i < maxBucketCount) :
    16 ≤ scheme.getBucketSizeInBytesByIndex i := by
  revert i
  cases scheme <;> decide

/-- The integral schemes; the small-float scheme maps a size of zero to the first class. -/
theorem sized {scheme : Partitioning} (integral : scheme ≠ float) : scheme.Sized := by
  cases scheme with
  | linear => exact linear_sized
  | float => exact absurd rfl integral
  | piecewise => exact piecewise_sized

end Partitioning

end SmMalloc
