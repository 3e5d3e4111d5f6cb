import SmMalloc.Model.Machine

namespace SmMalloc

open Foundation

/-!
# The fallback heap of the library

The `GenericAllocator` that the library brings along sits on `std::malloc`.
In front of every block it keeps a header of 16 bytes, with the pointer that
`std::free` needs and the size that was asked for.  The sizes are those of a
64-bit `size_t`, so the size handed to `std::malloc` can wrap around.

`std::malloc` is a parameter.  `Honest` is what its documentation promises.
-/

namespace GenericHeader

/-- `sizeof(Header)` -/
def headerSize : Nat := 16

/-- A null pointer, or a block of exactly `m` bytes with the alignment of every type. -/
def Honest (malloc : Nat -> Nat) (m : Nat) : Prop :=
  malloc m = 0 ∨ (16 ∣ malloc m ∧ malloc m + m ≤ 2 ^ 64)

/-- The alignment that is really used. -/
def atLeastMin (alignment : Nat) : Nat :=
  if alignment < kMinValidAlignment then kMinValidAlignment else alignment

def offset (alignment : Nat) : Nat := atLeastMin alignment - 1 + headerSize

/-- The size handed to `std::malloc`. -/
def mallocSize (bytesCount alignment : Nat) : Nat := (bytesCount + offset alignment) % 2 ^ 64

/-- `GenericAllocator::Alloc` -/
def alloc (malloc : Nat -> Nat) (mem : Memory) (bytesCount alignment : Nat) : Nat × Memory :=
  let p := malloc (mallocSize bytesCount alignment)
  if p = 0 then (0, mem)
  else
    let p2 := ((p + offset alignment) % 2 ^ 64) &&& (2 ^ 64 - 1 - (atLeastMin alignment - 1))
    let h := sizeSub p2 headerSize
    (p2, (mem.write h 8 p).write (h + 8) 8 bytesCount)

/-- `GenericAllocator::Free`, as the pointer that goes to `std::free`. -/
def free (mem : Memory) (p : Nat) : Option Nat :=
  if p = 0 then none else some (mem.read (sizeSub p headerSize) 8)

/-- `GenericAllocator::GetUsableSpace` -/
def getUsableSpace (mem : Memory) (p : Nat) : Nat :=
  if p = 0 then 0 else mem.read (sizeSub p headerSize + 8) 8

/-- What a block is good for: aligned, inside what `std::malloc` has given with
its header in front, and still able to tell its size and its origin after any
writes to the payload. -/
structure Real (malloc : Nat -> Nat) (bytesCount alignment q : Nat) (mem : Memory) : Prop where
  aligned : max alignment kMinValidAlignment ∣ q
  header : malloc (mallocSize bytesCount alignment) + headerSize ≤ q
  payload : q + bytesCount ≤
    malloc (mallocSize bytesCount alignment) + mallocSize bytesCount alignment
  describes : getUsableSpace mem q = bytesCount
  releases : forall mem' : Memory, (forall x, x < q ∨ q + bytesCount ≤ x -> mem' x = mem x) ->
    free mem' q = some (malloc (mallocSize bytesCount alignment))

variable {malloc : Nat -> Nat} {mem : Memory} {bytesCount alignment : Nat}

theorem valid_atLeastMin (valid : ValidAlignment alignment) :
    ∃ k, 2 ≤ k ∧ k ≤ 12 ∧ atLeastMin alignment = 2 ^ k := by
  rcases valid with ⟨k, small, rfl⟩
  unfold atLeastMin kMinValidAlignment
  by_cases less : k < 2
  · have below : 2 ^ k < 4 := Nat.pow_lt_pow_right (by decide) less
    exact ⟨2, Nat.le_refl _, by decide, if_pos below⟩
  · have above : 2 ^ 2 ≤ 2 ^ k := Nat.pow_le_pow_right Nat.two_pos (Nat.le_of_not_lt less)
    exact ⟨k, Nat.le_of_not_lt less, small, if_neg (Nat.not_lt_of_le above)⟩

theorem atLeastMin_eq_max (alignment : Nat) :
    atLeastMin alignment = max alignment kMinValidAlignment := by
  unfold atLeastMin
  split <;> omega

/-- The address is rounded up behind the header, inside the slack. -/
theorem rounded {p : Nat} (valid : ValidAlignment alignment) (bound : p + offset alignment < 2 ^ 64) :
    let q := ((p + offset alignment) % 2 ^ 64) &&& (2 ^ 64 - 1 - (atLeastMin alignment - 1))
    atLeastMin alignment ∣ q ∧ p + headerSize ≤ q ∧ q ≤ p + offset alignment := by
  intro q
  rcases valid_atLeastMin valid with ⟨k, -, small, power⟩
  have positive := Nat.two_pow_pos k
  have value : q = (p + offset alignment) / 2 ^ k * 2 ^ k := by
    change ((p + offset alignment) % 2 ^ 64) &&& (2 ^ 64 - 1 - (atLeastMin alignment - 1)) = _
    rw [Nat.mod_eq_of_lt bound, power]
    exact and_high_bits (by omega) bound
  have down := Nat.div_mul_le_self (p + offset alignment) (2 ^ k)
  have close : p + offset alignment < (p + offset alignment) / 2 ^ k * 2 ^ k + 2 ^ k :=
    Nat.lt_div_mul_add positive
  rw [value, power]
  refine ⟨Dvd.intro_left _ rfl, ?_, down⟩
  unfold offset headerSize at close ⊢
  rw [power] at close ⊢
  omega

theorem mod_word {v : Nat} (bound : v < 2 ^ 64) : v % 256 ^ 8 = v :=
  Nat.mod_eq_of_lt (Nat.lt_of_lt_of_eq bound (by decide))

/-- The memory once the header in front of the block at `q` has been written. -/
def withHeader (mem : Memory) (q p bytesCount : Nat) : Memory :=
  (mem.write (q - headerSize) 8 p).write (q - headerSize + 8) 8 bytesCount

theorem withHeader_size {q p : Nat} (bytesBound : bytesCount < 2 ^ 64) :
    (withHeader mem q p bytesCount).read (q - headerSize + 8) 8 = bytesCount := by
  rw [withHeader, Memory.read_write_same]
  exact mod_word bytesBound

/-- The pointer for `std::free` survives whatever is written behind the header. -/
theorem withHeader_origin {q p : Nat} {mem' : Memory} (room : headerSize ≤ q)
    (addressable : p < 2 ^ 64)
    (agree : forall x, x < q -> mem' x = withHeader mem q p bytesCount x) :
    mem'.read (q - headerSize) 8 = p := by
  unfold headerSize at room
  have kept : mem'.read (q - headerSize) 8 =
      (withHeader mem q p bytesCount).read (q - headerSize) 8 := by
    refine Memory.read_congr (fun j bound => agree _ ?_)
    unfold headerSize
    omega
  have first : (withHeader mem q p bytesCount).read (q - headerSize) 8 =
      (mem.write (q - headerSize) 8 p).read (q - headerSize) 8 :=
    Memory.read_write_apart (Or.inl (Nat.le_refl _))
  rw [kept, first, Memory.read_write_same]
  exact mod_word addressable

/-- A block of sufficient size is cut out behind its header. -/
theorem alloc_cut {p : Nat} (valid : ValidAlignment alignment)
    (isP : p = malloc (mallocSize bytesCount alignment)) (nonNull : p ≠ 0)
    (bound : p + offset alignment < 2 ^ 64) :
    ∃ q, alloc malloc mem bytesCount alignment = (q, withHeader mem q p bytesCount) ∧
      atLeastMin alignment ∣ q ∧ p + headerSize ≤ q ∧ q ≤ p + offset alignment := by
  rcases rounded valid bound with ⟨aligned, header, slack⟩
  refine ⟨_, ?_, aligned, header, slack⟩
  have start : sizeSub (((p + offset alignment) % 2 ^ 64) &&&
      (2 ^ 64 - 1 - (atLeastMin alignment - 1))) headerSize =
        (((p + offset alignment) % 2 ^ 64) &&& (2 ^ 64 - 1 - (atLeastMin alignment - 1))) -
          headerSize := by
    apply sizeSub_of_le <;> omega
  simp only [alloc, ← isP, if_neg nonNull, start, withHeader]

/-- The payload and its header are more than a wrapped size has room for. -/
theorem not_real_of_wrap {q : Nat} (valid : ValidAlignment alignment)
    (wraps : 2 ^ 64 ≤ bytesCount + offset alignment) (bytesBound : bytesCount < 2 ^ 64) :
    ¬ Real malloc bytesCount alignment q mem := by
  intro real
  rcases valid_atLeastMin valid with ⟨k, low, small, power⟩
  have most : 2 ^ k ≤ 2 ^ 12 := Nat.pow_le_pow_right Nat.two_pos small
  have payload := real.payload
  have header := real.header
  have size : mallocSize bytesCount alignment = (bytesCount + offset alignment) % 2 ^ 64 := rfl
  rw [size] at payload header
  unfold offset headerSize at *
  rw [power] at payload header wraps
  omega

/-- A block is real exactly if the size that it is cut from does not wrap around. -/
theorem real_iff (valid : ValidAlignment alignment) (bytesBound : bytesCount < 2 ^ 64)
    (honest : Honest malloc (mallocSize bytesCount alignment))
    (served : (alloc malloc mem bytesCount alignment).1 ≠ 0) :
    Real malloc bytesCount alignment (alloc malloc mem bytesCount alignment).1
        (alloc malloc mem bytesCount alignment).2 <->
      bytesCount + max alignment kMinValidAlignment - 1 + headerSize < 2 ^ 64 := by
  rw [← atLeastMin_eq_max]
  rcases valid_atLeastMin valid with ⟨k, low, small, power⟩
  have four : 2 ^ 2 ≤ 2 ^ k := Nat.pow_le_pow_right Nat.two_pos low
  constructor
  · intro real
    by_contra wraps
    refine not_real_of_wrap valid ?_ bytesBound real
    unfold offset
    omega
  · intro fits
    obtain ⟨p, isP⟩ : ∃ p, p = malloc (mallocSize bytesCount alignment) := ⟨_, rfl⟩
    have nonNull : p ≠ 0 := by
      rintro zero
      rw [alloc, ← isP, if_pos zero] at served
      exact served rfl
    have block := honest.resolve_left (isP ▸ nonNull)
    have size : mallocSize bytesCount alignment = bytesCount + offset alignment := by
      unfold mallocSize
      apply Nat.mod_eq_of_lt
      unfold offset
      omega
    rw [← isP, size] at block
    have odd : p + offset alignment < 2 ^ 64 := by
      -- the block starts at an even address and the offset is odd
      rcases block with ⟨⟨n, sixteen⟩, within⟩
      have even : 2 ∣ 2 ^ k := dvd_pow_self 2 (by omega)
      unfold offset headerSize at within ⊢
      rw [power] at within ⊢
      omega
    rcases alloc_cut valid isP nonNull odd with ⟨q, opened, aligned, header, slack⟩
    have room : headerSize ≤ q := by omega
    have notNull : q ≠ 0 := by
      unfold headerSize at room
      omega
    have start : sizeSub q headerSize = q - headerSize := by
      apply sizeSub_of_le <;> omega
    rw [opened]
    refine ⟨atLeastMin_eq_max alignment ▸ aligned, isP ▸ header, ?_, ?_, ?_⟩
    · rw [← isP, size]
      omega
    · rw [getUsableSpace, if_neg notNull, start]
      exact withHeader_size bytesBound
    · intro mem' agree
      rw [← isP, free, if_neg notNull, start]
      have addressable : p < 2 ^ 64 := by omega
      exact congrArg some
        (withHeader_origin room addressable (fun x below => agree x (Or.inl below)))

/-- A request for 100 bytes with alignment 64, on a `std::malloc` that answers 4096. -/
theorem real_100 :
    Real (fun _ => 4096) 100 64 (alloc (fun _ => 4096) (fun _ => 0) 100 64).1
        (alloc (fun _ => 4096) (fun _ => 0) 100 64).2 <->
      100 + max 64 kMinValidAlignment - 1 + headerSize < 2 ^ 64 :=
  real_iff ⟨6, by decide, rfl⟩ (by decide) (Or.inr ⟨by decide, by decide⟩) (by decide)

/-- For the largest request, 18 bytes are asked of `std::malloc`. -/
theorem unreal_max :
    ¬ Real (fun _ => 4096) (2 ^ 64 - 1) 4 (alloc (fun _ => 4096) (fun _ => 0) (2 ^ 64 - 1) 4).1
      (alloc (fun _ => 4096) (fun _ => 0) (2 ^ 64 - 1) 4).2 := by
  intro real
  exact absurd real.payload (by decide)

end GenericHeader

end SmMalloc
