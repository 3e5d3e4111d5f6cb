import Mathlib.Logic.Function.Basic
import SmMalloc.Foundation.ByteMemory
import SmMalloc.Foundation.Linked
import SmMalloc.Model.Partitioning

namespace SmMalloc

open Foundation

/-!
# The state of the allocators

Addresses are natural numbers, and `0` is the null pointer.  The pool buffers
live in one byte-addressed memory, so that a list link is nothing but bytes of
a free block.  Everything else that the source keeps in objects of its own
(allocators, thread-local cache buckets, the fallback heap) is a record of the
machine.

Allocators are named by a number that stands for the address of the object,
because a cache bucket keeps a pointer to the `PoolBucket` that it caches.
The pieces of the state that exist for observation only, the statistics and
the record of failed assertions and bad stores, are in `World`, which extends
the machine.  No function of the source reads them.
-/

/-! ## Tagged list links -/

/-- `PoolBucket::TaggedIndex` -/
structure TaggedIndex where
  tag : UInt32
  offset : UInt32
  deriving DecidableEq, Repr

namespace TaggedIndex

/-- `TaggedIndex::Invalid`, all bits set -/
def invalid : TaggedIndex := ⟨0xFFFFFFFF, 0xFFFFFFFF⟩

/-- The link stored in the first eight bytes of a block. -/
def load (mem : Memory) (a : Nat) : TaggedIndex where
  tag := UInt32.ofNat (mem.read a 4)
  offset := UInt32.ofNat (mem.read (a + 4) 4)

def store (mem : Memory) (a : Nat) (value : TaggedIndex) : Memory :=
  (mem.write a 4 value.tag.toNat).write (a + 4) 4 value.offset.toNat

/-- Links name blocks by their offset in the bucket. -/
def kind : LinkKind TaggedIndex Nat where
  stop := invalid
  target := fun value => value.offset.toNat

theorem load_congr {mem mem' : Memory} {a : Nat}
    (agree : forall k, k < 8 -> mem' (a + k) = mem (a + k)) : load mem' a = load mem a := by
  have tags : mem'.read a 4 = mem.read a 4 :=
    Memory.read_congr (fun k bound => agree k (by omega))
  have offsets : mem'.read (a + 4) 4 = mem.read (a + 4) 4 := by
    apply Memory.read_congr
    intro k bound
    have shifted := agree (4 + k) (by omega)
    rwa [← Nat.add_assoc] at shifted
  simp only [load, tags, offsets]

theorem store_outside {mem : Memory} {a x : Nat} {value : TaggedIndex}
    (outside : x < a ∨ a + 8 ≤ x) : store mem a value x = mem x := by
  rw [store, Memory.write_outside (by omega), Memory.write_outside (by omega)]

theorem load_store (mem : Memory) (a : Nat) (value : TaggedIndex) :
    load (store mem a value) a = value := by
  have tags : (store mem a value).read a 4 = value.tag.toNat := by
    rw [store, Memory.read_write_apart (by omega), Memory.read_write_same]
    exact Nat.mod_eq_of_lt value.tag.toNat_lt
  have offsets : (store mem a value).read (a + 4) 4 = value.offset.toNat := by
    rw [store, Memory.read_write_same]
    exact Nat.mod_eq_of_lt value.offset.toNat_lt
  simp only [load, tags, offsets, UInt32.ofNat_toNat]

end TaggedIndex

/-! ## The fallback heap -/

/-- A block of the fallback heap that is in use. -/
structure Region where
  base : Nat
  size : Nat
  deriving DecidableEq, Repr

/-- Two blocks of the fallback heap do not overlap; even empty ones have
addresses of their own. -/
def Region.Apart (r s : Region) : Prop :=
  r.base + max r.size 1 ≤ s.base ∨ s.base + max s.size 1 ≤ r.base

instance (r s : Region) : Decidable (r.Apart s) :=
  inferInstanceAs (Decidable (_ ∨ _))

theorem Region.Apart.symm {r s : Region} (apart : r.Apart s) : s.Apart r := Or.symm apart

/-- A call of the fallback heap. -/
inductive HeapEvent
  | alloc (bytesCount alignment result : Nat)
  | free (p : Nat)
  deriving DecidableEq, Repr

/-- `GenericAllocator`, the heap behind the pool.  It is exchangeable, so only
its contract is modelled: the `answers` are arbitrary, but an answer that is
not fresh memory as requested counts as a refusal.  `events` lists the calls
made, the latest first. -/
structure GenericAllocator where
  live : List Region
  answers : Nat -> Nat
  asked : Nat
  events : List HeapEvent

namespace GenericAllocator

/-- The contract of an answer: fresh aligned memory of the requested size,
above the addresses that stand for empty blocks. -/
def Serves (heap : GenericAllocator) (bytesCount alignment q : Nat) : Prop :=
  kMaxValidAlignment < q ∧ q + bytesCount ≤ 2 ^ 64 ∧ alignment ∣ q ∧ kMinValidAlignment ∣ q ∧
    forall r, r ∈ heap.live -> Region.Apart ⟨q, bytesCount⟩ r

instance (heap : GenericAllocator) (bytesCount alignment q : Nat) :
    Decidable (heap.Serves bytesCount alignment q) := by
  unfold Serves
  infer_instance

/-- What the next request gets: the next answer, or null. -/
def answer (heap : GenericAllocator) (bytesCount alignment : Nat) : Nat :=
  if heap.Serves bytesCount alignment (heap.answers heap.asked) then heap.answers heap.asked else 0

def alloc (heap : GenericAllocator) (bytesCount alignment : Nat) : Nat × GenericAllocator :=
  let q := heap.answer bytesCount alignment
  (q, { heap with
        live := if q = 0 then heap.live else ⟨q, bytesCount⟩ :: heap.live
        asked := heap.asked + 1
        events := .alloc bytesCount alignment q :: heap.events })

/-- `GenericAllocator::GetUsableSpace` -/
def getUsableSpace (heap : GenericAllocator) (p : Nat) : Nat :=
  match heap.live.find? (fun r => r.base == p) with
  | some r => r.size
  | none => 0

def free (heap : GenericAllocator) (p : Nat) : GenericAllocator :=
  if p = 0 then heap
  else { heap with
         live := heap.live.filter (fun r => r.base != p)
         events := .free p :: heap.events }

end GenericAllocator

/-! ## Allocators and thread caches -/

structure PoolBucket where
  head : TaggedIndex
  pData : Nat
  pBufferEnd : Nat
  globalTag : UInt32
  deriving DecidableEq, Repr

structure Allocator where
  bucketsCount : Nat
  bucketSizeInBytes : Nat
  pBufferEnd : Nat
  bucketsDataBegin : Nat -> Nat
  buckets : Nat -> PoolBucket
  pBuffer : Nat

/-- `TlsPoolBucket`.  The stack at `pStorageL1` is a heap block of its own,
so its cells `storageL1` are kept with the pointer to it. -/
structure TlsPoolBucket where
  pBucketData : Nat
  pStorageL1 : Nat
  pBucket : Option (Nat × Nat)
  storageL0 : Nat -> UInt32
  storageL1 : Nat -> UInt32
  maxElementsCount : Nat
  numElementsL1 : Nat
  numElementsL0 : Nat

/-- A thread-local cache bucket starts as zeroes. -/
def TlsPoolBucket.zero : TlsPoolBucket :=
  ⟨0, 0, none, fun _ => 0, fun _ => 0, 0, 0, 0⟩

def TlsPoolBucket.getElementsCount (self : TlsPoolBucket) : Nat :=
  self.numElementsL1 + self.numElementsL0

/-- Memory, allocators, the cache buckets of every thread, the fallback heap. -/
structure Machine where
  mem : Memory
  allocs : Nat -> Allocator
  tls : Nat -> Nat -> TlsPoolBucket
  heap : GenericAllocator

namespace Machine

/-- Bucket `i` of allocator `a`. -/
def bucket (m : Machine) (a i : Nat) : PoolBucket := (m.allocs a).buckets i

def setBucket (m : Machine) (a i : Nat) (b : PoolBucket) : Machine :=
  let alloc := { m.allocs a with buckets := Function.update (m.allocs a).buckets i b }
  { m with allocs := Function.update m.allocs a alloc }

def setTls (m : Machine) (t i : Nat) (self : TlsPoolBucket) : Machine :=
  { m with tls := Function.update m.tls t (Function.update (m.tls t) i self) }

variable (m : Machine) (a i t : Nat)

@[simp] theorem setBucket_mem (b : PoolBucket) : (m.setBucket a i b).mem = m.mem := rfl
@[simp] theorem setBucket_tls (b : PoolBucket) : (m.setBucket a i b).tls = m.tls := rfl
@[simp] theorem setBucket_heap (b : PoolBucket) : (m.setBucket a i b).heap = m.heap := rfl
@[simp] theorem setTls_mem (self : TlsPoolBucket) : (m.setTls t i self).mem = m.mem := rfl
@[simp] theorem setTls_allocs (self : TlsPoolBucket) : (m.setTls t i self).allocs = m.allocs := rfl
@[simp] theorem setTls_heap (self : TlsPoolBucket) : (m.setTls t i self).heap = m.heap := rfl

@[simp] theorem setBucket_bucket_same (b : PoolBucket) : (m.setBucket a i b).bucket a i = b := by
  simp [bucket, setBucket]

theorem setBucket_bucket_of_ne {a' i' : Nat} (b : PoolBucket) (different : ¬ (a' = a ∧ i' = i)) :
    (m.setBucket a i b).bucket a' i' = m.bucket a' i' := by
  by_cases same : a' = a
  · subst same
    have other : i' ≠ i := fun equal => different ⟨rfl, equal⟩
    simp [bucket, setBucket, other]
  · simp [bucket, setBucket, same]

theorem setBucket_allocs_of_ne {a' : Nat} (b : PoolBucket) (different : a' ≠ a) :
    (m.setBucket a i b).allocs a' = m.allocs a' := by
  simp [setBucket, different]

theorem setBucket_setBucket (first second : PoolBucket) :
    (m.setBucket a i first).setBucket a i second = m.setBucket a i second := by
  simp [setBucket]

@[simp] theorem setTls_same (self : TlsPoolBucket) : (m.setTls t i self).tls t i = self := by
  simp [setTls]

theorem setTls_of_ne {t' i' : Nat} (self : TlsPoolBucket) (different : ¬ (t' = t ∧ i' = i)) :
    (m.setTls t i self).tls t' i' = m.tls t' i' := by
  by_cases same : t' = t
  · subst same
    have other : i' ≠ i := fun equal => different ⟨rfl, equal⟩
    simp [setTls, other]
  · simp [setTls, same]

end Machine

/-! ## What an observer sees -/

structure GlobalStats where
  totalNumAllocationAttempts : Nat
  totalAllocationsServed : Nat
  totalAllocationsRoutedToDefaultAllocator : Nat
  routingReasonBySize : Nat
  routingReasonSaturation : Nat
  deriving DecidableEq, Repr

structure BucketStats where
  cacheHitCount : Nat
  hitCount : Nat
  missCount : Nat
  freeCount : Nat
  deriving DecidableEq, Repr

/-- The assertions of the source, named by the function and what they check. -/
inductive Assertion
  | alignPowerOfTwo
  | alignResult
  | getBucketIndexBySizeNotZero
  | getBucketIndexBySizeBelow4Gb
  | allocateAlignment
  | allocateBucketIndex
  | reallocReadable
  | allocFromCacheBucketData
  | allocFromCacheL0Empty
  | releaseToCacheBucket
  | releaseToCacheBucketData
  | releaseToCacheRange
  | returnL1CacheToMasterBucket
  | tlsInitClean
  | tlsInitCapacity
  | tlsInitBucket
  | tlsInitReleased
  | tlsInitCount
  | createThreadCacheOptions
  | poolCreateElementSize
  | initBucketsCount
  | initElementAligned
  | initBufferAligned
  deriving DecidableEq, Repr

/-- Stores that C++ leaves undefined. -/
inductive Fault
  | storeThroughNull
  | storePastStack
  deriving DecidableEq, Repr

/-- The machine together with what is only observed of it. -/
structure World extends Machine where
  globalStats : Nat -> GlobalStats
  bucketStats : Nat -> Nat -> BucketStats
  failed : List Assertion
  faults : List Fault

namespace World

/-- `SM_ASSERT`: a condition that does not hold is recorded. -/
def check (w : World) (site : Assertion) (holds : Bool) : World :=
  if holds then w else { w with failed := site :: w.failed }

def fault (w : World) (kind : Fault) : World := { w with faults := kind :: w.faults }

/-- The statistics are kept only where the template flag asks for them. -/
def countGlobal (w : World) (enableStatistic : Bool) (a : Nat) (count : GlobalStats -> GlobalStats) :
    World :=
  if enableStatistic then
    { w with globalStats := Function.update w.globalStats a (count (w.globalStats a)) }
  else w

def countBucket (w : World) (enableStatistic : Bool) (a i : Nat)
    (count : BucketStats -> BucketStats) : World :=
  if enableStatistic then
    let stats := Function.update (w.bucketStats a) i (count (w.bucketStats a i))
    { w with bucketStats := Function.update w.bucketStats a stats }
  else w

variable (w : World)

@[simp] theorem check_toMachine (site : Assertion) (holds : Bool) :
    (w.check site holds).toMachine = w.toMachine := by
  unfold check; split <;> rfl

@[simp] theorem check_faults (site : Assertion) (holds : Bool) :
    (w.check site holds).faults = w.faults := by
  unfold check; split <;> rfl

theorem check_true {site : Assertion} {holds : Bool} (fine : holds = true) :
    w.check site holds = w := by
  rw [check, if_pos fine]

@[simp] theorem countGlobal_toMachine (on : Bool) (a : Nat) (count : GlobalStats -> GlobalStats) :
    (w.countGlobal on a count).toMachine = w.toMachine := by
  unfold countGlobal; split <;> rfl

@[simp] theorem countGlobal_failed (on : Bool) (a : Nat) (count : GlobalStats -> GlobalStats) :
    (w.countGlobal on a count).failed = w.failed := by
  unfold countGlobal; split <;> rfl

@[simp] theorem countGlobal_faults (on : Bool) (a : Nat) (count : GlobalStats -> GlobalStats) :
    (w.countGlobal on a count).faults = w.faults := by
  unfold countGlobal; split <;> rfl

@[simp] theorem countBucket_toMachine (on : Bool) (a i : Nat) (count : BucketStats -> BucketStats) :
    (w.countBucket on a i count).toMachine = w.toMachine := by
  unfold countBucket; split <;> rfl

@[simp] theorem countBucket_failed (on : Bool) (a i : Nat) (count : BucketStats -> BucketStats) :
    (w.countBucket on a i count).failed = w.failed := by
  unfold countBucket; split <;> rfl

@[simp] theorem countBucket_faults (on : Bool) (a i : Nat) (count : BucketStats -> BucketStats) :
    (w.countBucket on a i count).faults = w.faults := by
  unfold countBucket; split <;> rfl

@[simp] theorem fault_toMachine (kind : Fault) : (w.fault kind).toMachine = w.toMachine := rfl

@[simp] theorem fault_failed (kind : Fault) : (w.fault kind).failed = w.failed := rfl

end World

end SmMalloc
