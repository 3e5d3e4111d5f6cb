import Mathlib.Order.Bounds.Defs
import SmMalloc.Model.BestFit

namespace SmMalloc

open Foundation

/-!
# Small floats round up

`SmallFloat` codes a size by its highest set bit and the two bits behind it.
Decoding a code gives back the size rounded up to the weight of the last bit
that the code keeps; a carry out of the mantissa goes into the exponent by
plain addition, and that is what rounding up means there.  So the size classes
of the float scheme keep the powers of two that divide a request, like those
of the other schemes.
-/

namespace SmallFloat

variable {n k : Nat}

/-- The weight of the last bit that the code of `n` keeps. -/
def weight (n : Nat) : Nat := Nat.log2 n - 2

/-- A number that is not tiny, cut at the last bit that its code keeps. -/
theorem split (large : 4 ≤ n) :
    ∃ m r, m < 4 ∧ r < 2 ^ weight n ∧ n = (4 + m) * 2 ^ weight n + r := by
  have nonzero : n ≠ 0 := by omega
  have two : 2 ≤ Nat.log2 n := (Nat.le_log2 nonzero).mpr large
  have low := Nat.log2_self_le nonzero
  have high : n < 2 ^ (Nat.log2 n + 1) := Nat.lt_log2_self
  have exponent : Nat.log2 n = weight n + 2 := by unfold weight; omega
  rw [exponent, Nat.pow_add] at low
  rw [exponent, Nat.pow_succ, Nat.pow_add] at high
  have positive := Nat.two_pow_pos (weight n)
  generalize 2 ^ weight n = unit at low high positive
  have remainder := Nat.mod_lt n positive
  have parts := Nat.div_add_mod n unit
  have quotientLow : 4 ≤ n / unit := (Nat.le_div_iff_mul_le positive).mpr (by omega)
  have quotientHigh : n / unit < 8 := (Nat.div_lt_iff_lt_mul positive).mpr (by omega)
  refine ⟨n / unit - 4, n % unit, by omega, remainder, ?_⟩
  rw [Nat.add_sub_cancel' quotientLow, Nat.mul_comm]
  exact parts.symm

/-- The code of a number that is cut in this way, in uint32 arithmetic. -/
theorem uintToFloatRoundUp_eq {m r : Nat} (bound : n < 2 ^ 32) (large : 4 ≤ n) (mantissa : m < 4)
    (remainder : r < 2 ^ weight n) (parts : n = (4 + m) * 2 ^ weight n + r) :
    uintToFloatRoundUp n = 4 * (weight n + 1) + if r = 0 then m else m + 1 := by
  have nonzero : n ≠ 0 := by omega
  have top : Nat.log2 n < 32 := (Nat.log2_lt nonzero).mpr bound
  have two : 2 ≤ Nat.log2 n := (Nat.le_log2 nonzero).mpr large
  have highest : 31 - lzcntNonzero n = Nat.log2 n := by unfold lzcntNonzero; omega
  have start : Nat.log2 n - 2 = weight n := rfl
  have divided : n / 2 ^ weight n = 4 + m ∧ n % 2 ^ weight n = r :=
    (Nat.div_mod_unique (Nat.two_pow_pos _)).mpr ⟨by rw [Nat.mul_comm]; omega, remainder⟩
  have kept : (n >>> weight n) &&& 3 = m := by
    have three : (3 : Nat) = 2 ^ 2 - 1 := rfl
    rw [Nat.shiftRight_eq_div_pow, three, Nat.and_two_pow_sub_one_eq_mod, divided.1]
    omega
  have lost : n &&& (1 <<< weight n - 1) = r := by
    rw [Nat.one_shiftLeft, Nat.and_two_pow_sub_one_eq_mod, divided.2]
  have small : ¬ n < 4 := by omega
  simp only [uintToFloatRoundUp, if_neg small, highest, start, kept, lost]
  rw [Nat.shiftLeft_eq]
  split
  next => omega
  next whole => rw [if_pos (not_not.mp whole), Nat.mul_comm]

/-- The value of a code whose exponent is not zero. -/
theorem floatToUint_eq {e m : Nat} (mantissa : m < 4) (bound : (4 + m) * 2 ^ e < 2 ^ 32) :
    floatToUint (4 * (e + 1) + m) = (4 + m) * 2 ^ e := by
  have exponent : (4 * (e + 1) + m) >>> 2 = e + 1 := by
    rw [Nat.shiftRight_eq_div_pow]
    omega
  have kept : (4 * (e + 1) + m) &&& 3 = m := by
    have three : (3 : Nat) = 2 ^ 2 - 1 := rfl
    rw [three, Nat.and_two_pow_sub_one_eq_mod]
    omega
  have leading : m ||| 4 = 4 + m := by
    have cases : forall m, m < 4 -> m ||| 4 = 4 + m := by decide
    exact cases m mantissa
  have normal : ¬ e + 1 = 0 := Nat.succ_ne_zero e
  simp only [floatToUint, exponent, kept, leading, if_neg normal, Nat.add_sub_cancel,
    Nat.shiftLeft_eq, Nat.mod_eq_of_lt bound]

/-- The greatest value that a code can stand for. -/
def limit : Nat := 0xE0000000

/-- Up to the limit, rounding up to the weight stays below it. -/
theorem roundUp_le_limit (large : 4 ≤ n) (bound : n ≤ limit) :
    roundUp n (2 ^ weight n) ≤ limit := by
  have nonzero : n ≠ 0 := by omega
  have top : Nat.log2 n < 32 := (Nat.log2_lt nonzero).mpr (Nat.lt_of_le_of_lt bound (by decide))
  have divides : 2 ^ weight n ∣ limit := by
    have power : 2 ^ weight n ∣ 2 ^ 29 := pow_dvd_pow 2 (by unfold weight; omega)
    exact Dvd.dvd.trans power (by decide)
  have positive := Nat.two_pow_pos (weight n)
  rcases divides with ⟨c, whole⟩
  have below : (n - 1) / 2 ^ weight n < c := by
    rw [Nat.div_lt_iff_lt_mul positive, Nat.mul_comm, ← whole]
    omega
  rw [whole, roundUp, Nat.mul_comm]
  exact Nat.mul_le_mul_left _ below

/-- Coding and decoding rounds up to the weight of the last bit that is kept. -/
theorem floatToUint_uintToFloatRoundUp (large : 4 ≤ n) (bound : n ≤ limit) :
    floatToUint (uintToFloatRoundUp n) = roundUp n (2 ^ weight n) := by
  have word : n < 2 ^ 32 := Nat.lt_of_le_of_lt bound (by decide)
  have rounded := roundUp_le_limit large bound
  have below : limit < 2 ^ 32 := by decide
  rcases split large with ⟨m, r, mantissa, remainder, parts⟩
  have positive := Nat.two_pow_pos (weight n)
  rw [uintToFloatRoundUp_eq word large mantissa remainder parts]
  by_cases whole : r = 0
  · have divides : 2 ^ weight n ∣ n := ⟨4 + m, by rw [Nat.mul_comm]; omega⟩
    have same := roundUp_of_dvd (by omega) divides
    rw [same] at rounded ⊢
    rw [if_pos whole, floatToUint_eq mantissa (by omega)]
    omega
  · have up : roundUp n (2 ^ weight n) = (4 + (m + 1)) * 2 ^ weight n := by
      have quotient : (n - 1) / 2 ^ weight n = 4 + m := by
        have shifted : n - 1 = 2 ^ weight n * (4 + m) + (r - 1) := by
          rw [Nat.mul_comm]
          omega
        rw [shifted, Nat.mul_add_div positive, Nat.div_eq_of_lt (by omega), Nat.add_zero]
      rw [roundUp, quotient, Nat.add_assoc]
    rw [if_neg whole, up]
    rw [up] at rounded
    by_cases carry : m + 1 = 4
    · -- the mantissa overflows into the exponent
      have code : 4 * (weight n + 1) + (m + 1) = 4 * (weight n + 1 + 1) + 0 := by omega
      have value : (4 + 0) * 2 ^ (weight n + 1) = (4 + (m + 1)) * 2 ^ weight n := by
        rw [Nat.pow_succ, carry]
        omega
      rw [code, floatToUint_eq (by decide) (by rw [value]; omega), value]
    · exact floatToUint_eq (by omega) (by omega)

/-- Codes are small, and they grow to at most 124. -/
theorem uintToFloatRoundUp_le (large : 4 ≤ n) (bound : n < 2 ^ 32) :
    uintToFloatRoundUp n ≤ 124 := by
  have top : Nat.log2 n < 32 := (Nat.log2_lt (by omega)).mpr bound
  rcases split large with ⟨m, r, mantissa, remainder, parts⟩
  rw [uintToFloatRoundUp_eq bound large mantissa remainder parts]
  unfold weight
  split <;> omega

/-! ## Codes and values -/

/-- A code below 124 is a value below 4, or an exponent and a mantissa. -/
theorem code_cases {f : Nat} (code : f < 124) :
    f < 4 ∨ ∃ e m, e ≤ 29 ∧ m < 4 ∧ f = 4 * (e + 1) + m := by
  by_cases small : f < 4
  · exact Or.inl small
  · exact Or.inr ⟨f / 4 - 1, f % 4, by omega, by omega, by omega⟩

/-- The value of such a code, with its leading bit. -/
theorem value_bounds {e m : Nat} (exponent : e ≤ 29) (mantissa : m < 4) :
    4 * 2 ^ e ≤ (4 + m) * 2 ^ e ∧ (4 + m) * 2 ^ e < 8 * 2 ^ e ∧ (4 + m) * 2 ^ e ≤ limit := by
  have positive := Nat.two_pow_pos e
  have top : 2 ^ e ≤ 2 ^ 29 := Nat.pow_le_pow_right (by decide) exponent
  have highest : limit = 7 * 2 ^ 29 := rfl
  rw [highest]
  refine ⟨Nat.mul_le_mul_right _ (by omega), Nat.mul_lt_mul_of_pos_right (by omega) positive, ?_⟩
  exact Nat.mul_le_mul (by omega) top

theorem weight_value {e m : Nat} (exponent : e ≤ 29) (mantissa : m < 4) :
    weight ((4 + m) * 2 ^ e) = e := by
  rcases value_bounds exponent mantissa with ⟨low, high, -⟩
  have nonzero : (4 + m) * 2 ^ e ≠ 0 := by
    have positive := Nat.two_pow_pos e
    omega
  have power : 2 ^ (e + 2) = 4 * 2 ^ e := by rw [Nat.pow_add, Nat.mul_comm]
  have power' : 2 ^ (e + 2 + 1) = 8 * 2 ^ e := by
    rw [Nat.add_assoc, Nat.pow_add, Nat.mul_comm]
  have log : Nat.log2 ((4 + m) * 2 ^ e) = e + 2 := by
    rw [Nat.log2_eq_iff nonzero, power, power']
    exact ⟨low, high⟩
  rw [weight, log, Nat.add_sub_cancel]

theorem floatToUint_le_limit {f : Nat} (code : f < 124) : floatToUint f ≤ limit := by
  rcases code_cases code with small | ⟨e, m, exponent, mantissa, rfl⟩
  · have values : forall f, f < 4 -> floatToUint f ≤ limit := by decide
    exact values f small
  · have bounds := value_bounds exponent mantissa
    rw [floatToUint_eq mantissa (Nat.lt_of_le_of_lt bounds.2.2 (by decide))]
    exact bounds.2.2

/-- Every code below 124 is the code of its value. -/
theorem uintToFloatRoundUp_floatToUint {f : Nat} (code : f < 124) :
    uintToFloatRoundUp (floatToUint f) = f := by
  rcases code_cases code with small | ⟨e, m, exponent, mantissa, rfl⟩
  · have values : forall f, f < 4 -> uintToFloatRoundUp (floatToUint f) = f := by decide
    exact values f small
  · rcases value_bounds exponent mantissa with ⟨low, -, atMost⟩
    have word : (4 + m) * 2 ^ e < 2 ^ 32 := Nat.lt_of_le_of_lt atMost (by decide)
    have large : 4 ≤ (4 + m) * 2 ^ e := by
      have positive := Nat.two_pow_pos e
      omega
    have same := weight_value exponent mantissa
    rw [floatToUint_eq mantissa word]
    have coded := uintToFloatRoundUp_eq word large mantissa
      (Nat.two_pow_pos (weight ((4 + m) * 2 ^ e))) (by rw [same, Nat.add_zero])
    rw [coded, same, if_pos rfl]

/-- Among numbers of the same weight the mantissa decides, with its carry, and
otherwise the weight does. -/
theorem uintToFloatRoundUp_mono {n m : Nat} (le : n ≤ m) (bound : m < 2 ^ 32) :
    uintToFloatRoundUp n ≤ uintToFloatRoundUp m := by
  by_cases small : n < 4
  · have tiny : uintToFloatRoundUp n = n := if_pos small
    by_cases small' : m < 4
    · have tiny' : uintToFloatRoundUp m = m := if_pos small'
      omega
    · rcases split (Nat.le_of_not_lt small') with ⟨c, r, mantissa, remainder, parts⟩
      rw [tiny, uintToFloatRoundUp_eq bound (Nat.le_of_not_lt small') mantissa remainder parts]
      omega
  have large : 4 ≤ n := Nat.le_of_not_lt small
  have large' : 4 ≤ m := Nat.le_trans large le
  rcases split large with ⟨c, r, mantissa, remainder, parts⟩
  rcases split large' with ⟨c', r', mantissa', remainder', parts'⟩
  rw [uintToFloatRoundUp_eq (Nat.lt_of_le_of_lt le bound) large mantissa remainder parts,
    uintToFloatRoundUp_eq bound large' mantissa' remainder' parts']
  have weights : weight n ≤ weight m := by
    unfold weight
    have logs : Nat.log2 n ≤ Nat.log2 m :=
      (Nat.le_log2 (by omega)).mpr (Nat.le_trans (Nat.log2_self_le (by omega)) le)
    omega
  rcases Nat.lt_or_eq_of_le weights with below | same
  · split <;> split <;> omega
  · rw [same] at remainder parts ⊢
    have positive := Nat.two_pow_pos (weight m)
    generalize 2 ^ weight m = unit at remainder parts remainder' parts' positive
    have ordered : c < c' ∨ c = c' ∧ r ≤ r' := by
      rcases Nat.lt_trichotomy c c' with less | equal | greater
      · exact Or.inl less
      · subst equal
        exact Or.inr ⟨rfl, by omega⟩
      · have product : (4 + c' + 1) * unit ≤ (4 + c) * unit := Nat.mul_le_mul_right _ (by omega)
        rw [Nat.add_mul, Nat.one_mul] at product
        omega
    rcases ordered with less | ⟨equal, rest⟩
    · split <;> split <;> omega
    · split <;> split <;> omega

/-- Decoding is monotone because coding is, and undoes it. -/
theorem floatToUint_lt {f g : Nat} (less : f < g) (code : g < 124) :
    floatToUint f < floatToUint g := by
  by_contra notLess
  have word : floatToUint f < 2 ^ 32 :=
    Nat.lt_of_le_of_lt (floatToUint_le_limit (Nat.lt_trans less code)) (by decide)
  have coded := uintToFloatRoundUp_mono (Nat.le_of_not_lt notLess) word
  rw [uintToFloatRoundUp_floatToUint code,
    uintToFloatRoundUp_floatToUint (Nat.lt_trans less code)] at coded
  omega

theorem floatToUint_mono {f g : Nat} (le : f ≤ g) (code : g < 124) :
    floatToUint f ≤ floatToUint g := by
  rcases Nat.lt_or_eq_of_le le with less | same
  · exact Nat.le_of_lt (floatToUint_lt less code)
  · rw [same]

theorem uintToFloatRoundUp_lt (bound : n ≤ limit) : uintToFloatRoundUp n < 124 := by
  have coded := uintToFloatRoundUp_mono bound (by decide)
  have top : uintToFloatRoundUp limit = 123 := by decide
  omega

theorem le_floatToUint (bound : n ≤ limit) : n ≤ floatToUint (uintToFloatRoundUp n) := by
  by_cases large : 4 ≤ n
  · rw [floatToUint_uintToFloatRoundUp large bound]
    exact le_roundUp n (Nat.two_pow_pos _)
  · have values : forall n, n < 4 -> n ≤ floatToUint (uintToFloatRoundUp n) := by decide
    exact values n (Nat.lt_of_not_le large)

/-- Coding and decoding are the two sides of a Galois connection. -/
theorem connection {f : Nat} (bound : n ≤ limit) (code : f < 124) :
    uintToFloatRoundUp n ≤ f <-> n ≤ floatToUint f := by
  constructor
  · intro coded
    exact Nat.le_trans (le_floatToUint bound) (floatToUint_mono coded code)
  · intro fits
    have word : floatToUint f < 2 ^ 32 :=
      Nat.lt_of_le_of_lt (floatToUint_le_limit code) (by decide)
    have coded := uintToFloatRoundUp_mono fits word
    rwa [uintToFloatRoundUp_floatToUint code] at coded

/-- What a codec that rounds up has to do, for codes below 124. -/
structure RoundUpCodec : Prop where
  decodes : forall f, f < 124 -> uintToFloatRoundUp (floatToUint f) = f
  least : forall n, n ≤ limit ->
    IsLeast {v | n ≤ v ∧ ∃ f, f < 124 ∧ floatToUint f = v} (floatToUint (uintToFloatRoundUp n))
  monotone : forall n m, n ≤ m -> m ≤ limit -> uintToFloatRoundUp n ≤ uintToFloatRoundUp m

theorem roundUpCodec : RoundUpCodec where
  decodes := fun _ code => uintToFloatRoundUp_floatToUint code
  least := by
    intro n bound
    refine ⟨⟨le_floatToUint bound, _, uintToFloatRoundUp_lt bound, rfl⟩, ?_⟩
    rintro v ⟨fits, f, code, rfl⟩
    exact floatToUint_mono ((connection bound code).mpr fits) code
  monotone := fun _ _ le bound =>
    uintToFloatRoundUp_mono le (Nat.lt_of_le_of_lt bound (by decide))

end SmallFloat

namespace Partitioning

/-- The classes of the float scheme that hold a representable value. -/
theorem float_size {i : Nat} (below : i ≤ 111) :
    float.getBucketSizeInBytesByIndex i = SmallFloat.floatToUint (i + 12) := by
  have word : (i + 12) % 2 ^ 32 = i + 12 := by omega
  simp only [getBucketSizeInBytesByIndex, word]

theorem float_index {n : Nat} (bound : n ≤ SmallFloat.limit) :
    float.getBucketIndexBySize n = SmallFloat.uintToFloatRoundUp n - 12 := by
  have word : n < 2 ^ 32 := Nat.lt_of_le_of_lt bound (by decide)
  simp only [getBucketIndexBySize, Nat.mod_eq_of_lt word]
  split <;> omega

/-- The class of a small-float request is the size rounded up, except that the
tiny sizes share the first class. -/
theorem float_size_index {n : Nat} (bound : n ≤ SmallFloat.limit) :
    (n ≤ 14 ∧ float.getBucketSizeInBytesByIndex (float.getBucketIndexBySize n) = 16) ∨
      ∃ a, float.getBucketSizeInBytesByIndex (float.getBucketIndexBySize n) =
        roundUp n (2 ^ a) := by
  have word : n < 2 ^ 32 := Nat.lt_of_le_of_lt bound (by decide)
  have index := float_index bound
  by_cases tiny : SmallFloat.uintToFloatRoundUp n < 12
  · refine Or.inl ⟨?_, ?_⟩
    · by_cases large : 4 ≤ n
      · have below : forall code, code < 12 -> SmallFloat.floatToUint code ≤ 14 := by decide
        have decoded := below _ tiny
        rw [SmallFloat.floatToUint_uintToFloatRoundUp large bound] at decoded
        exact Nat.le_trans (le_roundUp n (Nat.two_pow_pos _)) decoded
      · omega
    · rw [index, Nat.sub_eq_zero_of_le (Nat.le_of_lt tiny)]
      decide
  · have large : 4 ≤ n := by
      by_contra small
      have code : SmallFloat.uintToFloatRoundUp n = n := if_pos (Nat.lt_of_not_le small)
      omega
    have code := SmallFloat.uintToFloatRoundUp_le large word
    have same : (SmallFloat.uintToFloatRoundUp n - 12 + 12) % 2 ^ 32 =
        SmallFloat.uintToFloatRoundUp n := by omega
    refine Or.inr ⟨SmallFloat.weight n, ?_⟩
    rw [index]
    simp only [getBucketSizeInBytesByIndex, same]
    exact SmallFloat.floatToUint_uintToFloatRoundUp large bound

/-- Small-float classes keep the powers of two that divide a request. -/
theorem float_index_dvd {n k : Nat} (positive : 0 < n) (bound : n ≤ SmallFloat.limit)
    (divides : 2 ^ k ∣ n) :
    2 ^ k ∣ float.getBucketSizeInBytesByIndex (float.getBucketIndexBySize n) := by
  rcases float_size_index bound with ⟨tiny, size⟩ | ⟨a, size⟩
  · have le := Nat.le_of_dvd positive divides
    have small : k < 4 := (Nat.pow_lt_pow_iff_right (by decide : 1 < 2)).mp
      (Nat.lt_of_le_of_lt (Nat.le_trans le tiny) (by decide : 14 < 2 ^ 4))
    rw [size]
    exact pow_dvd_pow 2 (Nat.le_of_lt small)
  · rw [size]
    exact dvd_roundUp_of_dvd positive divides

theorem float_galois : float.Galois SmallFloat.limit := by
  have top : float.getBucketIndexBySize SmallFloat.limit = 111 := by decide
  refine ⟨?_, ?_, ?_⟩
  · intro n i positive bound below
    rw [top] at below
    rw [float_size below, float_index bound, ← SmallFloat.connection bound (by omega)]
    omega
  · intro i j less below
    rw [top] at below
    rw [float_size below, float_size (by omega)]
    exact SmallFloat.floatToUint_lt (by omega) (by omega)
  · intro i below
    rw [top] at below
    rw [float_size below]
    have first : SmallFloat.floatToUint 12 = 16 := by decide
    have atLeast := SmallFloat.floatToUint_mono (Nat.le_add_left 12 i) (by omega)
    exact ⟨by omega, SmallFloat.floatToUint_le_limit (by omega)⟩

/-- The small floats are a codec that rounds up, and so the classes of the
float scheme form an exact best fit. -/
theorem float_bestFit : SmallFloat.RoundUpCodec ∧ float.BestFit SmallFloat.limit :=
  ⟨SmallFloat.roundUpCodec,
    float_galois.bestFit (fun _ _ positive bound divides => float_index_dvd positive bound divides)⟩

/-- From every class on there is a class of whole pages, within reach of the search. -/
theorem reach (scheme : Partitioning) {i alignment : Nat} (bound : i < maxBucketCount)
    (valid : ValidAlignment alignment) :
    ∃ j, i < j ∧ j ≤ i + 256 ∧ alignment ∣ scheme.getBucketSizeInBytesByIndex j := by
  by_cases integral : scheme = float
  · subst integral
    unfold maxBucketCount at bound
    -- every class from 40 on is a multiple of a page
    have pages : forall j, j < 63 -> 40 ≤ j ->
        kMaxValidAlignment ∣ float.getBucketSizeInBytesByIndex j := by decide
    refine ⟨max (i + 1) 40, by omega, by omega, ?_⟩
    exact Dvd.dvd.trans valid.dvd_max (pages _ (by omega) (by omega))
  · exact (sized integral).reach i alignment bound valid

end Partitioning

end SmMalloc
