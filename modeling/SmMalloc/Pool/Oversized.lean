import SmMalloc.Pool.FirstFit

namespace SmMalloc

open Foundation

/-!
# Requests that are larger than every bucket

A request that no bucket is large enough for belongs to the fallback heap.
Under the float scheme the size class is computed from the low 32 bits of the
rounded size.  As long as the rounded size has no more bits than that, the
class is too high for every bucket when the request is.  A size that loses
bits gets the class of another size instead, and whatever the pool has for
this other size is too small.
-/

variable {scheme : Partitioning} {w w' : World} {m m' : Machine} {a t p n i j : Nat}
variable {bytesCount alignment : Nat} {enableStatistic : Bool}

/-! ## What is asked of a request -/

/-- The block at `p` is a block of bucket `j`: it has been taken from the
thread's cache of the bucket, or from the central list. -/
def PoolTaken (m : Machine) (a t j p : Nat) (m' : Machine) : Prop :=
  CachePopped m t j p m' ∨ ListPopped m a j p m'

/-- The request has gone to the fallback heap, and nowhere else. -/
def PassedOn (m : Machine) (bytesCount alignment p : Nat) (m' : Machine) : Prop :=
  p = m.heap.answer bytesCount alignment ∧
    m' = { m with heap := (m.heap.alloc bytesCount alignment).2 }

/-- The block at `p` has room for `n` bytes, or the fallback heap was asked. -/
def RoomFor (scheme : Partitioning) (m : Machine) (a t bytesCount alignment n p : Nat)
    (m' : Machine) : Prop :=
  (∃ j, j < (m.allocs a).bucketsCount ∧ PoolTaken m a t j p m' ∧
      n ≤ scheme.getBucketSizeInBytesByIndex j) ∨
    PassedOn m bytesCount alignment p m'

namespace Allocator

/-- `Realloc` allocates a new block for the contents of `p`. -/
def Relocates (scheme : Partitioning) (w : World) (a p bytesCount alignment : Nat) : Prop :=
  kMaxValidAlignment < p ∧
    if (w.allocs a).findBucket p < (w.allocs a).bucketsCount then
      scheme.getBucketSizeInBytesByIndex ((w.allocs a).findBucket p) < bytesCount
    else requestIndex scheme bytesCount alignment < (w.allocs a).bucketsCount

/-- How many bytes it moves into the new block; `w'` is the world with this block. -/
def relocatedCount (scheme : Partitioning) (w w' : World) (a p bytesCount : Nat) : Nat :=
  if (w.allocs a).findBucket p < (w.allocs a).bucketsCount then
    scheme.getBucketSizeInBytesByIndex ((w.allocs a).findBucket p)
  else min (w'.heap.getUsableSpace p) bytesCount

/-- The rest of `Realloc`: the contents move, and the old block is given back. -/
def relocate (w w' : World) (a t p r count : Nat) : Nat × World :=
  let moved := memmove w' r p count
  if (w.allocs a).findBucket p < (w.allocs a).bucketsCount then (r, free moved a t p)
  else (r, { moved with heap := moved.heap.free p })

end Allocator

/-- What the pass-through rule asks of requests of this size and alignment. -/
structure PassesThrough (scheme : Partitioning) (w : World) (a t bytesCount alignment : Nat) :
    Prop where
  fits : RoomFor scheme w.toMachine a t bytesCount alignment bytesCount
    (Allocator.alloc scheme w a t bytesCount alignment).1
    (Allocator.alloc scheme w a t bytesCount alignment).2.toMachine
  oversized : (forall i, i < (w.allocs a).bucketsCount ->
      scheme.getBucketSizeInBytesByIndex i < bytesCount) ->
    PassedOn w.toMachine bytesCount alignment
      (Allocator.alloc scheme w a t bytesCount alignment).1
      (Allocator.alloc scheme w a t bytesCount alignment).2.toMachine
  moves : forall p, Allocator.Relocates scheme w a p bytesCount alignment ->
    ∃ before : World, before.toMachine = w.toMachine ∧
      let allocated := Allocator.alloc scheme before a t bytesCount alignment
      let count := Allocator.relocatedCount scheme w allocated.2 a p bytesCount
      RoomFor scheme w.toMachine a t bytesCount alignment count allocated.1
          allocated.2.toMachine ∧
        (allocated.1 ≠ 0 -> Allocator.realloc scheme w a t p bytesCount alignment =
          Allocator.relocate w allocated.2 a t p allocated.1 count)

/-! ## Reallocation is allocation, a move and a release -/

theorem RoomFor.mono {n' : Nat} (room : RoomFor scheme m a t bytesCount alignment n p m')
    (le : n' ≤ n) : RoomFor scheme m a t bytesCount alignment n' p m' := by
  rcases room with ⟨j, bound, taken, fits⟩ | passed
  · exact Or.inl ⟨j, bound, taken, Nat.le_trans le fits⟩
  · exact Or.inr passed

theorem Allocator.relocatedCount_le (relocates : Relocates scheme w a p bytesCount alignment) :
    relocatedCount scheme w w' a p bytesCount ≤ bytesCount := by
  rcases relocates with ⟨-, grows⟩
  unfold relocatedCount
  split at grows
  next inPool =>
    rw [if_pos inPool]
    exact Nat.le_of_lt grows
  next elsewhere =>
    rw [if_neg elsewhere]
    exact Nat.min_le_right _ _

/-- A reallocation that moves is an allocation in the same state, a move and a release. -/
theorem realloc_relocates (scheme : Partitioning) (w : World) (a t p : Nat)
    (positive : 0 < bytesCount) (valid : ValidAlignment alignment)
    (relocates : Allocator.Relocates scheme w a p bytesCount alignment) :
    ∃ before : World, before.toMachine = w.toMachine ∧
      let allocated := Allocator.alloc scheme before a t bytesCount alignment
      (allocated.1 ≠ 0 -> Allocator.realloc scheme w a t p bytesCount alignment =
        Allocator.relocate w allocated.2 a t p allocated.1
          (Allocator.relocatedCount scheme w allocated.2 a p bytesCount)) := by
  rcases relocates with ⟨above, grows⟩
  have nonempty : bytesCount ≠ 0 := Nat.ne_of_gt positive
  by_cases inPool : (w.allocs a).findBucket p < (w.allocs a).bucketsCount
  · rw [if_pos inPool] at grows
    refine ⟨w, rfl, fun served => ?_⟩
    rw [realloc_inside above nonempty inPool]
    simp only [if_neg (Nat.not_le_of_lt grows), if_neg served, Allocator.relocate,
      Allocator.relocatedCount, if_pos inPool]
  · rw [if_neg inPool] at grows
    rcases realloc_outside above nonempty valid inPool with
      ⟨checked, -, machine, -, -, opened⟩
    refine ⟨checked, machine, fun _ => ?_⟩
    rw [opened]
    simp only [if_pos grows, Allocator.relocate, Allocator.relocatedCount, if_neg inPool]

/-! ## Where the float scheme keeps the rule -/

/-- No bucket has elements that come near to 2 ^ 32 bytes. -/
theorem float_size_le (bound : i < maxBucketCount) :
    Partitioning.float.getBucketSizeInBytesByIndex i ≤ 655360 := by
  revert i
  decide

theorem float_size_mono (le : i ≤ j) (bound : j < maxBucketCount) :
    Partitioning.float.getBucketSizeInBytesByIndex i ≤
      Partitioning.float.getBucketSizeInBytesByIndex j := by
  have top : Partitioning.float.getBucketIndexBySize SmallFloat.limit = 111 := by decide
  unfold maxBucketCount at bound
  rcases Nat.lt_or_eq_of_le le with less | rfl
  · exact Nat.le_of_lt (Partitioning.float_galois.increasing i j less (by omega))
  · exact Nat.le_refl _

/-- A size that keeps all its bits is not above the elements of its class. -/
theorem float_requestIndex_fits (positive : 0 < bytesCount) (valid : ValidAlignment alignment)
    (narrow : bytesCount + alignment ≤ 2 ^ 32)
    (inside : requestIndex .float bytesCount alignment < maxBucketCount) :
    bytesCount ≤ Partitioning.float.getBucketSizeInBytesByIndex
      (requestIndex .float bytesCount alignment) := by
  have atLeast := le_align valid positive (by omega)
  have below : align bytesCount alignment < 2 ^ 32 := by
    rw [align_eq valid]
    have rounded := Nat.div_mul_le_self ((bytesCount + (alignment - 1)) % 2 ^ 64) alignment
    have alignmentPos := valid.pos
    omega
  have bound : align bytesCount alignment ≤ SmallFloat.limit := by
    by_contra above
    have code := SmallFloat.uintToFloatRoundUp_mono (Nat.lt_of_not_le above) below
    have top : SmallFloat.uintToFloatRoundUp SmallFloat.limit.succ = 124 := by decide
    unfold requestIndex Partitioning.getBucketIndexBySize maxBucketCount at inside
    simp only [Nat.mod_eq_of_lt below] at inside
    split at inside <;> omega
  have nonempty : 1 ≤ align bytesCount alignment := Nat.le_trans positive atLeast
  have fits := (Partitioning.float_galois.connection _ _ nonempty bound
    (Partitioning.float_galois.index_le nonempty bound)).mp (Nat.le_refl _)
  exact Nat.le_trans atLeast fits

theorem Searched.roomFor
    (searched : Searched .float enableStatistic w a t bytesCount alignment p w')
    (positive : 0 < bytesCount) (valid : ValidAlignment alignment)
    (narrow : bytesCount + alignment ≤ 2 ^ 32) (count : (w.allocs a).bucketsCount ≤ maxBucketCount) :
    RoomFor .float w.toMachine a t bytesCount alignment bytesCount p w'.toMachine := by
  cases searched with
  | cached serves taken =>
      have bound := Nat.lt_of_lt_of_le serves.1 count
      exact Or.inl ⟨_, serves.1, Or.inl taken, float_requestIndex_fits positive valid narrow bound⟩
  | popped j misses offered least taken =>
      have below := Nat.lt_of_lt_of_le offered.below (Nat.min_le_right _ _)
      have bound := Nat.lt_of_lt_of_le below count
      have fits := float_requestIndex_fits positive valid narrow
        (Nat.lt_of_le_of_lt offered.above bound)
      exact Or.inl ⟨j, below, Or.inr taken,
        Nat.le_trans fits (float_size_mono offered.above bound)⟩
  | generic misses none answer machine => exact Or.inr ⟨answer, machine⟩

/-- The pool has nothing for the size class that the request gets. -/
def NothingOffered (scheme : Partitioning) (m : Machine) (a t bytesCount alignment : Nat) : Prop :=
  ¬ CacheServes scheme m a t bytesCount alignment ∧
    forall j, ¬ Offered scheme m a alignment (requestIndex scheme bytesCount alignment)
      (searchEnd scheme m a bytesCount alignment) j

theorem Searched.passedOn
    (searched : Searched scheme enableStatistic w a t bytesCount alignment p w')
    (nothing : NothingOffered scheme w.toMachine a t bytesCount alignment) :
    PassedOn w.toMachine bytesCount alignment p w'.toMachine := by
  cases searched with
  | cached serves taken => exact absurd serves nothing.1
  | popped j misses offered least taken => exact absurd offered (nothing.2 j)
  | generic misses none answer machine => exact ⟨answer, machine⟩

/-- The fallback heap notices that it is asked. -/
theorem PassedOn.asked (passed : PassedOn m bytesCount alignment p m') : m'.heap ≠ m.heap := by
  rw [passed.2]
  intro same
  exact List.cons_ne_self _ _ (congrArg GenericAllocator.events same)

theorem Searched.heap (searched : Searched scheme enableStatistic w a t bytesCount alignment p w')
    (something : ¬ NothingOffered scheme w.toMachine a t bytesCount alignment) :
    w'.heap = w.heap := by
  cases searched with
  | cached serves taken =>
      rcases taken with ⟨o, slot, -, machine, -⟩
      rw [machine, Machine.setTls_heap]
  | popped j misses offered least taken => rw [taken.machine, Machine.setBucket_heap]
  | generic misses none => exact absurd ⟨misses, none⟩ something

/-- A size that loses bits is above the elements of all buckets. -/
theorem Searched.not_roomFor
    (searched : Searched .float enableStatistic w a t bytesCount alignment p w')
    (valid : ValidAlignment alignment) (wide : ¬ bytesCount + alignment ≤ 2 ^ 32)
    (something : ¬ NothingOffered .float w.toMachine a t bytesCount alignment)
    (count : (w.allocs a).bucketsCount ≤ maxBucketCount) :
    ¬ RoomFor .float w.toMachine a t bytesCount alignment bytesCount p w'.toMachine := by
  rintro (⟨j, below, -, fits⟩ | passed)
  · have small := float_size_le (Nat.lt_of_lt_of_le below count)
    have page : alignment ≤ 4096 := valid.le_max
    omega
  · exact passed.asked (searched.heap something)

/-- Under the float scheme the pass-through rule holds of a request exactly if
its rounded size has at most 32 bits, or the pool has nothing for the class it gets. -/
theorem passesThrough_iff (positive : 0 < bytesCount) (valid : ValidAlignment alignment)
    (searchable : Searchable .float w.toMachine a t bytesCount alignment) :
    PassesThrough .float w a t bytesCount alignment <->
      bytesCount + alignment ≤ 2 ^ 32 ∨
        NothingOffered .float w.toMachine a t bytesCount alignment := by
  have count := searchable.count_le
  have searched := allocate_searched true positive valid searchable
  constructor
  · intro passes
    by_contra neither
    rcases not_or.mp neither with ⟨wide, something⟩
    exact searched.not_roomFor valid wide something count passes.fits
  · intro kept
    have fits : forall (before : World), before.toMachine = w.toMachine -> forall {p w'},
        Searched .float true before a t bytesCount alignment p w' ->
        RoomFor .float w.toMachine a t bytesCount alignment bytesCount p w'.toMachine := by
      intro before same p w' searched
      rw [← same] at kept count ⊢
      rcases kept with narrow | nothing
      · exact searched.roomFor positive valid narrow count
      · exact Or.inr (searched.passedOn nothing)
    refine ⟨fits w rfl searched, ?_, ?_⟩
    · intro larger
      rcases fits w rfl searched with ⟨j, below, -, enough⟩ | passed
      · exact absurd enough (Nat.not_le_of_lt (larger j below))
      · exact passed
    · intro p relocates
      rcases realloc_relocates .float w a t p positive valid relocates with ⟨before, same, result⟩
      have later := allocate_searched (w := before) true positive valid (same ▸ searchable)
      have room := fits before same later
      exact ⟨before, same, room.mono (Allocator.relocatedCount_le relocates), result⟩

/-! ## One bucket of one page -/

/-- A program with the float scheme, at its start. -/
def floatPage : World := Allocator.init .float (World.initial everyOtherPage) 0 1 4096

theorem passesThrough_floatPage : PassesThrough .float floatPage 0 0 (2 ^ 31) 4 :=
  (passesThrough_iff (by decide) ⟨2, by decide, rfl⟩
    ⟨by decide, by decide, fun serves => absurd serves.2 (by decide)⟩).mpr (Or.inl (by decide))

/-- The size wraps around to zero, and a block of 16 bytes is the answer. -/
theorem not_passesThrough_floatPage : ¬ PassesThrough .float floatPage 0 0 (2 ^ 64 - 1) 4 := by
  intro passes
  rcases passes.fits with ⟨j, below, -, fits⟩ | passed
  · have first : j = 0 := by
      have one : (floatPage.allocs 0).bucketsCount = 1 := by decide
      omega
    subst first
    exact absurd fits (by decide)
  · exact absurd passed.1 (by decide +kernel)

end SmMalloc
