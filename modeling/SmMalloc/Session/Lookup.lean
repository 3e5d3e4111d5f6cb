import SmMalloc.Foundation.Transition
import SmMalloc.Pool.Addresses
import SmMalloc.Pool.FirstFit
import SmMalloc.Pool.Static

namespace SmMalloc

open Foundation

/-!
# Which configurations can look a pointer up

`FindBucket` divides by the bucket size and subtracts the address of the first
bucket.  Both are set in one place of `Init`, after an early return and through
a rounding that can wrap around, and nothing checks them later.  A handle is
followed here from its creation with any arguments, through any calls on the
pointers that it has handed out.
-/

variable {scheme : Partitioning} {w : World} {a t : Nat}
variable {sizeofAllocator bucketsCount bucketSizeInBytes : Nat}

/-- `FindBucket` has a divisor, and a base that `Init` has stored. -/
structure Allocator.Routable (alloc : Allocator) : Prop where
  divisor : alloc.bucketSizeInBytes ≠ 0
  begun : 0 < alloc.bucketsCount
  base : alloc.bucketsDataBegin 0 = alloc.pBuffer

/-- A call on a handle. -/
inductive Call
  | alloc (t bytesCount alignment : Nat)
  | free (t p : Nat)
  | realloc (t p bytesCount alignment : Nat)
  | getUsableSize (p : Nat)
  | getBucketIndex (p : Nat)

namespace Call

/-- The pointer that a call takes. -/
def pointer : Call -> Option Nat
  | alloc _ _ _ => none
  | free _ p => some p
  | realloc _ p _ _ => some p
  | getUsableSize p => some p
  | getBucketIndex p => some p

/-- Whether a call evaluates `FindBucket`. -/
def looksUp (alloc : Allocator) : Call -> Bool
  | .alloc _ _ _ => false
  | .free _ p => Allocator.isReadable p
  | .realloc _ p _ _ => Allocator.isReadable p
  | .getUsableSize p => Allocator.isReadable p
  | .getBucketIndex p => alloc.isMyAlloc p

end Call

/-- A handle in use, with all pointers that were obtained from it. -/
structure Handle where
  world : World
  obtained : List Nat

namespace Handle

def step (scheme : Partitioning) (a : Nat) (h : Handle) : Call -> Handle
  | .alloc t bytesCount alignment =>
      let r := Allocator.alloc scheme h.world a t bytesCount alignment
      ⟨r.2, r.1 :: h.obtained⟩
  | .free t p => ⟨Allocator.free h.world a t p, h.obtained⟩
  | .realloc t p bytesCount alignment =>
      let r := Allocator.realloc scheme h.world a t p bytesCount alignment
      ⟨r.2, r.1 :: h.obtained⟩
  | .getUsableSize _ => h
  | .getBucketIndex _ => h

/-- A handle from its creation on, used with the pointers obtained from it. -/
def system (scheme : Partitioning) (sizeofAllocator : Nat) (w : World)
    (bucketsCount bucketSizeInBytes : Nat) : Transition Handle Call where
  start := fun h =>
    h = ⟨(smAllocatorCreate scheme sizeofAllocator w bucketsCount bucketSizeInBytes).2, []⟩
  allowed := fun h call => forall p, call.pointer = some p -> p ∈ h.obtained
  next := step scheme (smAllocatorCreate scheme sizeofAllocator w bucketsCount bucketSizeInBytes).1

/-- In every run, every evaluation of `FindBucket` finds its operands set. -/
def NeverDividesByZero (scheme : Partitioning) (sizeofAllocator : Nat) (w : World)
    (bucketsCount bucketSizeInBytes : Nat) : Prop :=
  forall h call,
    (system scheme sizeofAllocator w bucketsCount bucketSizeInBytes).Reachable h ->
    (system scheme sizeofAllocator w bucketsCount bucketSizeInBytes).allowed h call ->
    call.looksUp (h.world.allocs
      (smAllocatorCreate scheme sizeofAllocator w bucketsCount bucketSizeInBytes).1) = true ->
    (h.world.allocs
      (smAllocatorCreate scheme sizeofAllocator w bucketsCount bucketSizeInBytes).1).Routable

end Handle

/-- Being routable is a matter of the layout. -/
theorem Allocator.Routable.of_layout {alloc alloc' : Allocator} (routable : alloc.Routable)
    (same : alloc'.layout = alloc.layout) : alloc'.Routable where
  divisor := by
    have equal := congrArg Allocator.bucketSizeInBytes same
    exact fun zero => routable.divisor (equal.symm.trans zero)
  begun := Nat.lt_of_lt_of_eq routable.begun (congrArg Allocator.bucketsCount same).symm
  base := by
    have equal := congrFun (congrArg Allocator.bucketsDataBegin same) 0
    exact equal.trans (routable.base.trans (congrArg Allocator.pBuffer same).symm)

/-- No call changes the layout of any allocator object. -/
theorem Handle.step_layout (h : Handle) (call : Call) :
    (h.step scheme a call).world.layout = h.world.layout := by
  cases call with
  | alloc t bytesCount alignment => exact World.alloc_layout h.world
  | free t p => exact World.free_layout h.world a t p
  | realloc t p bytesCount alignment => exact World.realloc_layout h.world
  | getUsableSize p => rfl
  | getBucketIndex p => rfl

/-- No run changes the layout that the creation has left. -/
theorem Handle.reachable_layout {h : Handle}
    (reachable : (Handle.system scheme sizeofAllocator w bucketsCount
      bucketSizeInBytes).Reachable h) :
    h.world.layout = (smAllocatorCreate scheme sizeofAllocator w bucketsCount
      bucketSizeInBytes).2.layout := by
  apply reachable.invariant
  · intro first start
    rw [start]
  · intro before call _ same _
    exact (Handle.step_layout before call).trans same

/-- The rounding of `Init` gives zero only for a size of zero and where it wraps around. -/
theorem align_pos_iff {n : Nat} (bound : n < 2 ^ 64) :
    align n kMaxValidAlignment ≠ 0 <-> 1 ≤ n ∧ n ≤ 2 ^ 64 - 4096 := by
  have valid : ValidAlignment kMaxValidAlignment := ⟨12, by decide, rfl⟩
  by_cases wraps : 2 ^ 64 < n + kMaxValidAlignment
  · rw [align_of_wrap valid bound wraps]
    unfold kMaxValidAlignment at wraps
    omega
  · unfold kMaxValidAlignment at wraps
    rw [align_pages n (by omega), pagesOf]
    omega

/-- `_sm_allocator_create` is `Init` on a new object. -/
theorem create_opened (scheme : Partitioning) (sizeofAllocator : Nat) (w : World)
    (bucketsCount bucketSizeInBytes : Nat) :
    ∃ ready : World, ready.tls = w.tls ∧
      (ready.allocs (w.heap.alloc sizeofAllocator cacheLineSize).1).bucketsCount = 0 ∧
      smAllocatorCreate scheme sizeofAllocator w bucketsCount bucketSizeInBytes =
        ((w.heap.alloc sizeofAllocator cacheLineSize).1,
          Allocator.init scheme ready (w.heap.alloc sizeofAllocator cacheLineSize).1 bucketsCount
            bucketSizeInBytes) := by
  refine ⟨{ w with heap := (w.heap.alloc sizeofAllocator cacheLineSize).2 }.construct
    (w.heap.alloc sizeofAllocator cacheLineSize).1, ?_, ?_, rfl⟩
  · rw [World.construct_toMachine]
  · rw [World.construct_toMachine]
    simp only [Function.update_self]
    rfl

/-- The handle after a creation with at least one bucket. -/
theorem create_routed (scheme : Partitioning) (sizeofAllocator : Nat) (w : World)
    (bucketSizeInBytes : Nat) (positive : 1 ≤ bucketsCount) :
    ∃ ready : World, ready.tls = w.tls ∧ Routed bucketsCount bucketSizeInBytes
      (smAllocatorCreate scheme sizeofAllocator w bucketsCount bucketSizeInBytes).1 ready
      (smAllocatorCreate scheme sizeofAllocator w bucketsCount bucketSizeInBytes).2 := by
  rcases create_opened scheme sizeofAllocator w bucketsCount bucketSizeInBytes with
    ⟨ready, tls, fresh, opened⟩
  rw [opened]
  exact ⟨ready, tls, init_routed scheme bucketSizeInBytes fresh positive⟩

/-- After a creation with usable arguments pointers can be looked up. -/
theorem create_routable (positive : 1 ≤ bucketsCount)
    (size : align bucketSizeInBytes kMaxValidAlignment ≠ 0) :
    ((smAllocatorCreate scheme sizeofAllocator w bucketsCount bucketSizeInBytes).2.allocs
      (smAllocatorCreate scheme sizeofAllocator w bucketsCount
        bucketSizeInBytes).1).Routable := by
  have some : 0 < min bucketsCount maxBucketCount := Nat.lt_min.mpr ⟨positive, by decide⟩
  rcases create_routed scheme sizeofAllocator w bucketSizeInBytes positive with ⟨_, -, routed⟩
  have first := routed.buckets 0 some
  refine ⟨?_, ?_, ?_⟩
  · exact fun zero => size (routed.bucketSizeInBytes.symm.trans zero)
  · exact Nat.lt_of_lt_of_eq some routed.bucketsCount.symm
  · have pData := first.pData
    rw [Nat.zero_mul, Nat.add_zero] at pData
    exact first.begins.trans pData

/-- After a creation without a bucket they cannot. -/
theorem create_unbegun (scheme : Partitioning) (sizeofAllocator : Nat) (w : World)
    (bucketSizeInBytes : Nat) : ((smAllocatorCreate scheme sizeofAllocator w 0
    bucketSizeInBytes).2.allocs
      (smAllocatorCreate scheme sizeofAllocator w 0 bucketSizeInBytes).1).bucketsCount = 0 ∧
    (smAllocatorCreate scheme sizeofAllocator w 0 bucketSizeInBytes).2.tls = w.tls := by
  rcases create_opened scheme sizeofAllocator w 0 bucketSizeInBytes with
    ⟨ready, tls, fresh, opened⟩
  have unused : ¬ (ready.allocs
      (w.heap.alloc sizeofAllocator cacheLineSize).1).bucketsCount > 0 := by omega
  rw [opened]
  simp only [Allocator.init, if_neg unused, if_true, World.check_toMachine]
  exact ⟨fresh, tls⟩

/-! ## The first block of a new allocator -/

theorem requestIndex_one (scheme : Partitioning) : requestIndex scheme 1 1 = 0 := by
  cases scheme <;> decide

theorem one_le_requestLimit (scheme : Partitioning) : 1 ≤ scheme.requestLimit := by
  cases scheme <;> decide

/-- An allocator without buckets leaves a request for a byte to the fallback heap. -/
theorem alloc_one_generic (scheme : Partitioning) (t : Nat)
    (unbegun : (w.allocs a).bucketsCount = 0) :
    (Allocator.alloc scheme w a t 1 1).1 = w.heap.answer 1 1 := by
  have misses : ¬ CacheServes scheme w.toMachine a t 1 1 := by
    intro serves
    have inside := serves.1
    omega
  have found : Found scheme w.toMachine a t 1 1 _ _ := allocate_found true Nat.one_pos
    (one_le_requestLimit scheme) ⟨0, by decide, rfl⟩
    ⟨by omega, fun i bound => by omega, fun serves => absurd serves misses⟩
  refine (found.of_none misses (fun j eligible => ?_)).1
  have below := eligible.below
  unfold searchEnd at below
  omega

/-- A fresh list serves a request for a byte with the first block of the pool. -/
theorem alloc_one_block (scheme : Partitioning) (begun : 0 < (w.allocs a).bucketsCount)
    (count : (w.allocs a).bucketsCount ≤ maxBucketCount)
    (uncached : (w.tls t 0).getElementsCount = 0)
    (data : forall i, i < (w.allocs a).bucketsCount -> (w.bucket a i).pData ≠ 0)
    (head : (w.bucket a 0).head = ⟨0, 0⟩) :
    (Allocator.alloc scheme w a t 1 1).1 = (w.bucket a 0).pData := by
  have index := requestIndex_one scheme
  have misses : ¬ CacheServes scheme w.toMachine a t 1 1 := by
    intro serves
    have nonempty := serves.2
    rw [index] at nonempty
    exact nonempty uncached
  have found : Found scheme w.toMachine a t 1 1 _ _ := allocate_found true Nat.one_pos
    (one_le_requestLimit scheme) ⟨0, by decide, rfl⟩
    ⟨count, data, fun serves => absurd serves misses⟩
  have first : FirstEligible scheme w.toMachine a 1 (requestIndex scheme 1 1)
      (searchEnd scheme w.toMachine a 1 1) 0 := by
    refine ⟨⟨Nat.le_of_eq index, ?_, Nat.one_dvd _, ?_⟩, fun k _ => Nat.zero_le k⟩
    · unfold searchEnd
      omega
    · rw [head]
      decide
  have taken := (found.of_eligible misses first).head
  rw [head] at taken
  exact taken

/-- A served request is for real memory, above the pointers for empty blocks. -/
theorem answer_readable {heap : GenericAllocator} {bytesCount alignment : Nat}
    (served : heap.answer bytesCount alignment ≠ 0) :
    Allocator.isReadable (heap.answer bytesCount alignment) = true :=
  decide_eq_true (GenericAllocator.serves_of_answer served).1

/-- The generic allocations of a creation, and the next one, succeed. -/
structure Handle.Succeeds (scheme : Partitioning) (sizeofAllocator : Nat) (w : World)
    (bucketsCount bucketSizeInBytes : Nat) : Prop where
  object : (smAllocatorCreate scheme sizeofAllocator w bucketsCount bucketSizeInBytes).1 ≠ 0
  buffer : bucketsCount ≠ 0 -> ((smAllocatorCreate scheme sizeofAllocator w bucketsCount
    bucketSizeInBytes).2.allocs (smAllocatorCreate scheme sizeofAllocator w bucketsCount
      bucketSizeInBytes).1).pBuffer ≠ 0
  next : (smAllocatorCreate scheme sizeofAllocator w bucketsCount
    bucketSizeInBytes).2.heap.answer 1 1 ≠ 0

/-- A thread without cached blocks that asks a new handle for a byte gets a
readable pointer: from the fallback heap where there is no bucket, and
otherwise the first block of the first bucket, whether or not it has a size. -/
theorem create_firstByte (uncached : (w.tls t 0).getElementsCount = 0)
    (succeeds : Handle.Succeeds scheme sizeofAllocator w bucketsCount bucketSizeInBytes) :
    Allocator.isReadable (Allocator.alloc scheme
      (smAllocatorCreate scheme sizeofAllocator w bucketsCount bucketSizeInBytes).2
      (smAllocatorCreate scheme sizeofAllocator w bucketsCount bucketSizeInBytes).1
      t 1 1).1 = true := by
  by_cases none : bucketsCount = 0
  · subst none
    have unbegun := (create_unbegun scheme sizeofAllocator w bucketSizeInBytes).1
    rw [alloc_one_generic scheme t unbegun]
    exact answer_readable succeeds.next
  · have positive : 1 ≤ bucketsCount := Nat.one_le_iff_ne_zero.mpr none
    rcases create_routed scheme sizeofAllocator w bucketSizeInBytes positive with
      ⟨ready, tls, routed⟩
    have buffer := succeeds.buffer none
    have some : 0 < min bucketsCount maxBucketCount := Nat.lt_min.mpr ⟨positive, by decide⟩
    have first := routed.buckets 0 some
    have address := first.pData
    rw [Nat.zero_mul, Nat.add_zero] at address
    rw [alloc_one_block scheme]
    · rw [address]
      rw [routed.pBuffer] at buffer ⊢
      exact answer_readable buffer
    · rw [routed.bucketsCount]
      exact some
    · rw [routed.bucketsCount]
      exact Nat.min_le_right _ _
    · rw [routed.tls, tls]
      exact uncached
    · intro i bound
      rw [routed.bucketsCount] at bound
      rw [(routed.buckets i bound).pData]
      omega
    · exact first.head

/-! ## Exactly when every lookup is safe -/

/-- A request takes no pointer, so that it is always allowed. -/
theorem Handle.allowed_alloc (h : Handle) (t bytesCount alignment : Nat) :
    (Handle.system scheme sizeofAllocator w bucketsCount bucketSizeInBytes).allowed h
      (Call.alloc t bytesCount alignment) :=
  fun p impossible => by cases impossible

/-- In every run of a handle every lookup finds its operands set, exactly if the
handle was created with at least one bucket and with a size that is not zero
and does not wrap around in `Align`. -/
theorem Handle.neverDividesByZero_iff (bound : bucketSizeInBytes < 2 ^ 64)
    (uncached : (w.tls t 0).getElementsCount = 0)
    (succeeds : Handle.Succeeds scheme sizeofAllocator w bucketsCount bucketSizeInBytes) :
    Handle.NeverDividesByZero scheme sizeofAllocator w bucketsCount bucketSizeInBytes <->
      1 ≤ bucketsCount ∧ 1 ≤ bucketSizeInBytes ∧ bucketSizeInBytes ≤ 2 ^ 64 - 4096 := by
  rw [← align_pos_iff bound]
  constructor
  · intro never
    have readable := create_firstByte (t := t) uncached succeeds
    have start : (Handle.system scheme sizeofAllocator w bucketsCount
        bucketSizeInBytes).Reachable ⟨(smAllocatorCreate scheme sizeofAllocator w bucketsCount
          bucketSizeInBytes).2, []⟩ := Transition.Reachable.start rfl
    have reachable := start.step (Handle.allowed_alloc _ t 1 1)
    have routable := never _ (Call.free t (Allocator.alloc scheme
      (smAllocatorCreate scheme sizeofAllocator w bucketsCount bucketSizeInBytes).2
      (smAllocatorCreate scheme sizeofAllocator w bucketsCount bucketSizeInBytes).1 t 1 1).1)
      reachable (fun p same => by cases same; exact List.mem_cons_self) readable
    have layout := congrFun (Handle.reachable_layout reachable)
      (smAllocatorCreate scheme sizeofAllocator w bucketsCount bucketSizeInBytes).1
    have created := routable.of_layout layout.symm
    by_cases none : bucketsCount = 0
    · subst none
      have begun := created.begun
      rw [(create_unbegun scheme sizeofAllocator w bucketSizeInBytes).1] at begun
      exact absurd begun (Nat.lt_irrefl 0)
    · have positive : 1 ≤ bucketsCount := Nat.one_le_iff_ne_zero.mpr none
      rcases create_routed scheme sizeofAllocator w bucketSizeInBytes positive with ⟨_, -, routed⟩
      refine ⟨positive, fun zero => created.divisor ?_⟩
      exact routed.bucketSizeInBytes.trans zero
  · rintro ⟨positive, size⟩ h call reachable _ _
    have layout := congrFun (Handle.reachable_layout reachable)
      (smAllocatorCreate scheme sizeofAllocator w bucketsCount bucketSizeInBytes).1
    exact (create_routable positive size).of_layout layout

theorem Handle.neverDividesByZero_onePage :
    Handle.NeverDividesByZero .piecewise 64 (World.initial everyOtherPage) 1 4096 <->
      1 ≤ 1 ∧ 1 ≤ 4096 ∧ 4096 ≤ 2 ^ 64 - 4096 :=
  Handle.neverDividesByZero_iff (t := 0) (by decide) rfl ⟨by decide, by decide, by decide⟩

/-- A handle for no bucket serves a byte and cannot take it back. -/
theorem Handle.dividesByZero_noBucket :
    ¬ Handle.NeverDividesByZero .piecewise 64 (World.initial everyOtherPage) 0 4096 := by
  intro never
  have start : (Handle.system .piecewise 64 (World.initial everyOtherPage) 0 4096).Reachable
      ⟨(smAllocatorCreate .piecewise 64 (World.initial everyOtherPage) 0 4096).2, []⟩ :=
    Transition.Reachable.start rfl
  have reachable := start.step (Handle.allowed_alloc _ 0 1 1)
  have routable := never _ (Call.free 0 16384) reachable
    (fun p same => by cases same; decide) (by decide)
  exact absurd routable.begun (by decide)

end SmMalloc
