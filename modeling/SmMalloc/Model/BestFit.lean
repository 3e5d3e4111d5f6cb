import SmMalloc.Model.Partitioning

namespace SmMalloc

/-!
# The size classes form an exact best fit

`GetBucketIndexBySize` and `GetBucketSizeInBytesByIndex` are written
independently of each other.  On the sizes for which the arithmetic of the
latter does not wrap around, they are the two sides of a Galois connection:
a request fits into class `i` exactly if it is not sent to a class above it.
The other properties of a best fit follow from this one and from the sizes
being in increasing order.
-/

namespace Partitioning

/-- Requests of up to `limit` bytes, and the classes that they reach. -/
structure Galois (scheme : Partitioning) (limit : Nat) : Prop where
  connection : forall n i, 1 ≤ n -> n ≤ limit -> i ≤ scheme.getBucketIndexBySize limit ->
    (scheme.getBucketIndexBySize n ≤ i <-> n ≤ scheme.getBucketSizeInBytesByIndex i)
  increasing : forall i j, i < j -> j ≤ scheme.getBucketIndexBySize limit ->
    scheme.getBucketSizeInBytesByIndex i < scheme.getBucketSizeInBytesByIndex j
  within : forall i, i ≤ scheme.getBucketIndexBySize limit ->
    1 ≤ scheme.getBucketSizeInBytesByIndex i ∧ scheme.getBucketSizeInBytesByIndex i ≤ limit

/-- What a best fit is: the chosen class is the least one that is large
enough, among classes of increasing size, and it keeps power-of-two factors. -/
structure BestFit (scheme : Partitioning) (limit : Nat) : Prop where
  fits : forall n, 1 ≤ n -> n ≤ limit ->
    n ≤ scheme.getBucketSizeInBytesByIndex (scheme.getBucketIndexBySize n)
  least : forall n i, 1 ≤ n -> n ≤ limit -> i < scheme.getBucketIndexBySize n ->
    scheme.getBucketSizeInBytesByIndex i < n
  increasing : forall i j, i < j -> j ≤ scheme.getBucketIndexBySize limit ->
    scheme.getBucketSizeInBytesByIndex i < scheme.getBucketSizeInBytesByIndex j
  monotone : forall n m, 1 ≤ n -> n ≤ m -> m ≤ limit ->
    scheme.getBucketIndexBySize n ≤ scheme.getBucketIndexBySize m
  inverse : forall i, i ≤ scheme.getBucketIndexBySize limit ->
    scheme.getBucketIndexBySize (scheme.getBucketSizeInBytesByIndex i) = i
  divides : forall n k, 1 ≤ n -> n ≤ limit -> 2 ^ k ∣ n ->
    2 ^ k ∣ scheme.getBucketSizeInBytesByIndex (scheme.getBucketIndexBySize n)

variable {scheme : Partitioning} {limit : Nat}

theorem Galois.monotone (galois : scheme.Galois limit) {n m : Nat} (positive : 1 ≤ n)
    (le : n ≤ m) (bound : m ≤ limit) :
    scheme.getBucketIndexBySize n ≤ scheme.getBucketIndexBySize m := by
  by_cases top : scheme.getBucketIndexBySize m ≤ scheme.getBucketIndexBySize limit
  · have fits := (galois.connection m _ (Nat.le_trans positive le) bound top).mp (Nat.le_refl _)
    exact (galois.connection n _ positive (Nat.le_trans le bound) top).mpr (Nat.le_trans le fits)
  · -- the class of the limit holds everything below the limit
    have positive' : 1 ≤ limit := Nat.le_trans positive (Nat.le_trans le bound)
    have fits := (galois.connection limit _ positive' (Nat.le_refl _) (Nat.le_refl _)).mp
      (Nat.le_refl _)
    exact absurd ((galois.connection m _ (Nat.le_trans positive le) bound (Nat.le_refl _)).mpr
      (Nat.le_trans bound fits)) top

theorem Galois.index_le (galois : scheme.Galois limit) {n : Nat} (positive : 1 ≤ n)
    (bound : n ≤ limit) : scheme.getBucketIndexBySize n ≤ scheme.getBucketIndexBySize limit :=
  galois.monotone positive bound (Nat.le_refl _)

theorem Galois.least (galois : scheme.Galois limit) {n i : Nat} (positive : 1 ≤ n)
    (bound : n ≤ limit) (below : i < scheme.getBucketIndexBySize n) :
    scheme.getBucketSizeInBytesByIndex i < n := by
  have top := galois.index_le positive bound
  by_contra large
  have placed := (galois.connection n i positive bound (by omega)).mpr (Nat.le_of_not_lt large)
  exact absurd placed (Nat.not_le_of_lt below)

theorem Galois.inverse (galois : scheme.Galois limit) {i : Nat}
    (top : i ≤ scheme.getBucketIndexBySize limit) :
    scheme.getBucketIndexBySize (scheme.getBucketSizeInBytesByIndex i) = i := by
  have size := galois.within i top
  have upper := (galois.connection _ i size.1 size.2 top).mpr (Nat.le_refl _)
  have fits := (galois.connection _ _ size.1 size.2
    (galois.index_le size.1 size.2)).mp (Nat.le_refl _)
  by_contra different
  have larger := galois.increasing _ i (Nat.lt_of_le_of_ne upper different) top
  exact absurd fits (Nat.not_le_of_lt larger)

/-- A Galois connection that keeps power-of-two factors is a best fit. -/
theorem Galois.bestFit (galois : scheme.Galois limit)
    (divides : forall n k, 1 ≤ n -> n ≤ limit -> 2 ^ k ∣ n ->
      2 ^ k ∣ scheme.getBucketSizeInBytesByIndex (scheme.getBucketIndexBySize n)) :
    scheme.BestFit limit where
  fits := fun n positive bound =>
    (galois.connection n _ positive bound (galois.index_le positive bound)).mp (Nat.le_refl _)
  least := fun _ _ positive bound below => galois.least positive bound below
  increasing := galois.increasing
  monotone := fun _ _ positive le bound => galois.monotone positive le bound
  inverse := fun _ top => galois.inverse top
  divides := divides

/-! ## The two integral schemes -/

theorem linear_galois : linear.Galois (2 ^ 64 - 16) := by
  have top : linear.getBucketIndexBySize (2 ^ 64 - 16) = 2 ^ 60 - 2 := by decide
  refine ⟨?_, ?_, ?_⟩
  · intro n i positive bound below
    rw [top] at below
    rw [linear_index positive (by omega), linear_size (by omega)]
    omega
  · intro i j less below
    rw [top] at below
    rw [linear_size (by omega), linear_size (by omega)]
    omega
  · intro i below
    rw [top] at below
    rw [linear_size (by omega)]
    omega

/-- The class sizes of the piecewise scheme, in one formula each. -/
theorem piecewise_size_cases {i : Nat} (bound : i < 2 ^ 55 + 12) :
    (i ≤ 7 ∧ piecewise.getBucketSizeInBytesByIndex i = 16 * (i + 1)) ∨
      (7 < i ∧ i ≤ 14 ∧ piecewise.getBucketSizeInBytesByIndex i = 128 * (i - 6)) ∨
      (14 < i ∧ piecewise.getBucketSizeInBytesByIndex i = 512 * (i - 12)) := by
  by_cases low : i ≤ 7
  · exact Or.inl ⟨low, piecewise_size_low low⟩
  by_cases mid : i ≤ 14
  · exact Or.inr (Or.inl ⟨by omega, mid, piecewise_size_mid (by omega) mid⟩)
  · exact Or.inr (Or.inr ⟨by omega, piecewise_size_high (by omega) bound⟩)

theorem piecewise_index_cases {n : Nat} (positive : 1 ≤ n) (bound : n < 2 ^ 64) :
    (n ≤ 128 ∧ piecewise.getBucketIndexBySize n = (n - 1) / 16) ∨
      (128 < n ∧ n ≤ 1024 ∧ piecewise.getBucketIndexBySize n = 7 + (n - 1) / 128) ∨
      (1024 < n ∧ piecewise.getBucketIndexBySize n = 13 + (n - 1) / 512) := by
  by_cases low : n ≤ 128
  · exact Or.inl ⟨low, piecewise_index_low positive low⟩
  by_cases mid : n ≤ 1024
  · exact Or.inr (Or.inl ⟨by omega, mid, piecewise_index_mid (by omega) mid⟩)
  · exact Or.inr (Or.inr ⟨by omega, piecewise_index_high (by omega) bound⟩)

theorem piecewise_galois : piecewise.Galois (2 ^ 64 - 512) := by
  have top : piecewise.getBucketIndexBySize (2 ^ 64 - 512) = 2 ^ 55 + 11 := by decide
  refine ⟨?_, ?_, ?_⟩
  · intro n i positive bound below
    rw [top] at below
    have index := piecewise_index_cases positive (by omega)
    have size := piecewise_size_cases (i := i) (by omega)
    omega
  · intro i j less below
    rw [top] at below
    have first := piecewise_size_cases (i := i) (by omega)
    have second := piecewise_size_cases (i := j) (by omega)
    omega
  · intro i below
    rw [top] at below
    have size := piecewise_size_cases (i := i) (by omega)
    omega

theorem linear_divides {n k : Nat} (positive : 1 ≤ n) (bound : n ≤ 2 ^ 64 - 16)
    (divides : 2 ^ k ∣ n) :
    2 ^ k ∣ linear.getBucketSizeInBytesByIndex (linear.getBucketIndexBySize n) := by
  have rounded : linear.getBucketSizeInBytesByIndex (linear.getBucketIndexBySize n) =
      Foundation.roundUp n (2 ^ 4) := by
    rw [linear_index positive (by omega), linear_size (by omega), Foundation.roundUp]
    omega
  rw [rounded]
  exact Foundation.dvd_roundUp_of_dvd positive divides

theorem piecewise_divides {n k : Nat} (positive : 1 ≤ n) (bound : n ≤ 2 ^ 64 - 512)
    (divides : 2 ^ k ∣ n) :
    2 ^ k ∣ piecewise.getBucketSizeInBytesByIndex (piecewise.getBucketIndexBySize n) := by
  have rounded : ∃ a, piecewise.getBucketSizeInBytesByIndex (piecewise.getBucketIndexBySize n) =
      Foundation.roundUp n (2 ^ a) := by
    rcases piecewise_index_cases positive (by omega) with
      ⟨low, index⟩ | ⟨above, mid, index⟩ | ⟨high, index⟩
    · refine ⟨4, ?_⟩
      rw [index, piecewise_size_low (by omega), Foundation.roundUp]
      omega
    · refine ⟨7, ?_⟩
      rw [index, piecewise_size_mid (by omega) (by omega), Foundation.roundUp]
      omega
    · refine ⟨9, ?_⟩
      rw [index, piecewise_size_high (by omega) (by omega), Foundation.roundUp]
      omega
  rcases rounded with ⟨a, size⟩
  rw [size]
  exact Foundation.dvd_roundUp_of_dvd positive divides

/-- Both integral schemes are a best fit on all sizes that their classes can hold. -/
theorem integral_bestFit :
    piecewise.BestFit (2 ^ 64 - 512) ∧ linear.BestFit (2 ^ 64 - 16) :=
  ⟨piecewise_galois.bestFit (fun _ _ => piecewise_divides),
    linear_galois.bestFit (fun _ _ => linear_divides)⟩

end Partitioning

end SmMalloc
