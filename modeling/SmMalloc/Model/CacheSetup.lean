import SmMalloc.Model.Allocate

namespace SmMalloc

open Foundation

/-!
# Creating and destroying allocators and thread caches

Warming up a new cache bucket goes through the public `Allocate` and `Free`
while that very bucket is being filled.  The blocks obtained are threaded
through their own first eight bytes (`CacheWarmupLink`), and then moved to
level 1 of the cache.
-/

/-- `CacheWarmupOptions` -/
inductive CacheWarmupOptions
  | cold
  | warm
  | hot
  deriving DecidableEq, Repr

/-- Warm-up links are the addresses of blocks, in the blocks' first eight bytes. -/
def warmupKind : LinkKind Nat Nat where
  stop := 0
  target := id

namespace TlsPoolBucket

/-- The filling loop of `Init`, for the remaining number of blocks.  The
result has the root of the list of blocks obtained. -/
def warmupFill (scheme : Partitioning) (a t bucketIndex : Nat) :
    Nat -> Nat -> World -> Nat × World
  | 0, pRoot, w => (pRoot, w)
  | remaining + 1, pRoot, w =>
      let elementSize := scheme.getBucketSizeInBytesByIndex bucketIndex
      let allocated := Allocator.allocate scheme false w a t elementSize kDefaultTlsCacheAlignment
      let p := allocated.1
      let w := allocated.2
      if p = 0 then (pRoot, w)
      else if (w.allocs a).getBucketIndex p ≠ bucketIndex then (pRoot, Allocator.free w a t p)
      else warmupFill scheme a t bucketIndex remaining p { w with mem := w.mem.write p 8 pRoot }

/-- The moving loop of `Init`.  The list has at most as many blocks as the
filling loop had rounds. -/
def warmupDrain (t bucketIndex : Nat) : Nat -> Nat -> World -> World
  | 0, _, w => w
  | rounds + 1, pCurrent, w =>
      if pCurrent = 0 then w
      else
        let pNext := w.mem.read pCurrent 8
        let released := Allocator.releaseToCache false w t bucketIndex pCurrent
        warmupDrain t bucketIndex rounds pNext (released.2.check .tlsInitReleased released.1)

/-- `TlsPoolBucket::Init` -/
def init (scheme : Partitioning) (w : World) (t pCacheStack maxElementsNum : Nat)
    (warmupOptions : CacheWarmupOptions) (a bucketIndex : Nat) : World :=
  let old := w.tls t bucketIndex
  let w := w.check .tlsInitClean (decide (old.numElementsL0 = 0))
  let w := w.check .tlsInitClean (decide (old.numElementsL1 = 0))
  let w := w.check .tlsInitClean old.pBucket.isNone
  let w := w.check .tlsInitClean (decide (old.pBucketData = 0))
  let w := w.check .tlsInitClean (decide (old.pStorageL1 = 0))
  let w := w.check .tlsInitClean (decide (old.maxElementsCount = 0))
  let w := w.check .tlsInitCapacity (decide (maxElementsNum ≥ maxCacheItemsCount + 2))
  let pBucket := if bucketIndex < (w.allocs a).bucketsCount then some (a, bucketIndex) else none
  let maxElementsCount := (maxElementsNum + 2 ^ 32 - maxCacheItemsCount) % 2 ^ 32
  let w := w.check .tlsInitBucket pBucket.isSome
  let w := w.setTls t bucketIndex { old with
    pStorageL1 := pCacheStack
    numElementsL1 := 0
    numElementsL0 := 0
    maxElementsCount := maxElementsCount
    pBucket := pBucket
    pBucketData := (w.bucket a bucketIndex).pData }
  match warmupOptions with
  | .cold => w
  | _ =>
      let num := if warmupOptions = .warm then maxElementsCount / 2 else maxElementsCount
      let filled := warmupFill scheme a t bucketIndex num 0 w
      let w := warmupDrain t bucketIndex num filled.1 filled.2
      w.check .tlsInitCount (decide ((w.tls t bucketIndex).getElementsCount = num))

/-- The loop of `Destroy` that moves level 0 into level 1. -/
def moveL0ToL1 (t i : Nat) : Nat -> Nat -> World -> World
  | 0, _, w => w
  | remaining + 1, k, w => moveL0ToL1 t i remaining (k + 1) (w.pushL1 t i ((w.tls t i).storageL0 k))

/-- `TlsPoolBucket::Destroy` -/
def destroy (w : World) (t i : Nat) : Nat × World :=
  let w := moveL0ToL1 t i (w.tls t i).numElementsL0 0 w
  let w := if (w.tls t i).numElementsL1 > 0 then
      returnL1CacheToMaster w t i (w.tls t i).numElementsL1
    else w
  let self := w.tls t i
  (self.pStorageL1, w.setTls t i { self with
    pStorageL1 := 0
    numElementsL0 := 0
    numElementsL1 := 0
    maxElementsCount := 0
    pBucket := none
    pBucketData := 0 })

end TlsPoolBucket

namespace Allocator

/-- The loop of `CreateThreadCache`, from bucket `i` on. -/
def createThreadCacheFrom (scheme : Partitioning) (a t : Nat) (warmupOptions : CacheWarmupOptions) :
    Nat -> List Nat -> World -> World
  | _, [], w => w
  | i, elementsNum :: options, w =>
      if (w.allocs a).bucketsCount ≤ i then w
      else
        let elementsNum := (elementsNum + maxCacheItemsCount) % 2 ^ 32
        let localStack := w.heap.alloc (elementsNum * 4) cacheLineSize
        let w := TlsPoolBucket.init scheme { w with heap := localStack.2 } t localStack.1
          elementsNum warmupOptions a i
        createThreadCacheFrom scheme a t warmupOptions (i + 1) options w

/-- `Allocator::CreateThreadCache` -/
def createThreadCache (scheme : Partitioning) (w : World) (a t : Nat)
    (warmupOptions : CacheWarmupOptions) (options : List Nat) : World :=
  let w := w.check .createThreadCacheOptions (options.length ≤ (w.allocs a).bucketsCount)
  createThreadCacheFrom scheme a t warmupOptions 0 options w

/-- The loop of `DestroyThreadCache`, over the remaining cache buckets. -/
def destroyThreadCacheFrom (t : Nat) : Nat -> Nat -> World -> World
  | 0, _, w => w
  | remaining + 1, i, w =>
      let destroyed := TlsPoolBucket.destroy w t i
      let w := destroyed.2
      destroyThreadCacheFrom t remaining (i + 1) { w with heap := w.heap.free destroyed.1 }

/-- `Allocator::DestroyThreadCache`: every cache bucket of the calling thread. -/
def destroyThreadCache (w : World) (t : Nat) : World :=
  destroyThreadCacheFrom t maxBucketCount 0 w

/-! ## Construction -/

/-- An `Allocator` as its constructor leaves it. -/
def constructed : Allocator where
  bucketsCount := 0
  bucketSizeInBytes := 0
  pBufferEnd := 0
  bucketsDataBegin := fun _ => 0
  buckets := fun _ => ⟨TaggedIndex.invalid, 0, 0, 0⟩
  pBuffer := 0

/-- The last loop of `Init`, over the remaining buckets. -/
def initBuckets (scheme : Partitioning) (a : Nat) : Nat -> Nat -> World -> World
  | 0, _, w => w
  | remaining + 1, i, w =>
      let alloc := w.allocs a
      let pData := alloc.pBuffer + i * alloc.bucketSizeInBytes
      let bucket := { w.bucket a i with
        pData := pData
        pBufferEnd := pData + alloc.bucketSizeInBytes }
      let elementSize := scheme.getBucketSizeInBytesByIndex i
      let w := w.check .initElementAligned (isAligned elementSize kMinValidAlignment)
      let w := w.check .initBufferAligned (isAligned pData kMaxValidAlignment)
      let w := w.check .poolCreateElementSize (elementSize ≥ 16)
      let w := if alloc.pBuffer = 0 then w.fault .storeThroughNull else w
      let m := PoolBucket.create (w.toMachine.setBucket a i bucket) a i elementSize
      let begun := { m.allocs a with
        bucketsDataBegin := Function.update (m.allocs a).bucketsDataBegin i pData }
      let m := { m with allocs := Function.update m.allocs a begun }
      initBuckets scheme a remaining (i + 1) { w with toMachine := m }

/-- `Allocator::Init` -/
def init (scheme : Partitioning) (w : World) (a _bucketsCount _bucketSizeInBytes : Nat) : World :=
  if (w.allocs a).bucketsCount > 0 then w
  else
    let w := w.check .initBucketsCount
      (decide (_bucketsCount > 0) && decide (_bucketsCount ≤ maxBucketCount))
    if _bucketsCount = 0 then w
    else
      let bucketsCount := if _bucketsCount ≥ maxBucketCount then maxBucketCount else _bucketsCount
      let w := w.checkAlign _bucketSizeInBytes kMaxValidAlignment
      let bucketSizeInBytes := align _bucketSizeInBytes kMaxValidAlignment
      let totalBytesCount := bucketSizeInBytes * bucketsCount % 2 ^ 64
      let buffer := w.heap.alloc totalBytesCount kMaxValidAlignment
      let alloc := { w.allocs a with
        bucketsCount := bucketsCount
        bucketSizeInBytes := bucketSizeInBytes
        bucketsDataBegin := fun _ => 0
        pBuffer := buffer.1
        pBufferEnd := buffer.1 + totalBytesCount + 1 }
      let w := { w with allocs := Function.update w.allocs a alloc, heap := buffer.2 }
      initBuckets scheme a bucketsCount 0 w

end Allocator

/-- The placement new of `_sm_allocator_create`: an allocator object with all
counters at zero, at the address that the fallback heap answered. -/
def World.construct (w : World) (a : Nat) : World :=
  let w := if a = 0 then w.fault .storeThroughNull else w
  { w with
    allocs := Function.update w.allocs a Allocator.constructed
    globalStats := Function.update w.globalStats a ⟨0, 0, 0, 0, 0⟩
    bucketStats := Function.update w.bucketStats a (fun _ => ⟨0, 0, 0, 0⟩) }

@[simp] theorem World.construct_toMachine (w : World) (a : Nat) : (w.construct a).toMachine =
    { w.toMachine with allocs := Function.update w.allocs a Allocator.constructed } := by
  unfold construct
  simp only
  split <;> rfl

@[simp] theorem World.construct_failed (w : World) (a : Nat) :
    (w.construct a).failed = w.failed := by
  unfold construct
  simp only
  split <;> rfl

theorem World.construct_faults (w : World) (a : Nat) : (w.construct a).faults =
    if a = 0 then .storeThroughNull :: w.faults else w.faults := by
  unfold construct
  simp only
  split <;> rfl

/-- `_sm_allocator_create`: the handle is the address of the allocator object.
`sizeofAllocator` is the size of that object, which depends on the build. -/
def smAllocatorCreate (scheme : Partitioning) (sizeofAllocator : Nat) (w : World)
    (bucketsCount bucketSizeInBytes : Nat) : Nat × World :=
  let object := w.heap.alloc sizeofAllocator cacheLineSize
  let a := object.1
  let w := { w with heap := object.2 }.construct a
  (a, Allocator.init scheme w a bucketsCount bucketSizeInBytes)

/-- `_sm_allocator_destroy`: the destructor gives the buffer back, and then the
object goes.  No thread cache is looked at. -/
def smAllocatorDestroy (w : World) (a : Nat) : World :=
  if a = 0 then w
  else
    let w := { w with heap := w.heap.free (w.allocs a).pBuffer }
    { w with heap := w.heap.free a }

/-! ## A program that has just started -/

/-- Nothing is allocated and no thread has a cache. -/
def World.initial (answers : Nat -> Nat) : World where
  mem := fun _ => 0
  allocs := fun _ => Allocator.constructed
  tls := fun _ _ => TlsPoolBucket.zero
  heap := ⟨[], answers, 0, []⟩
  globalStats := fun _ => ⟨0, 0, 0, 0, 0⟩
  bucketStats := fun _ _ => ⟨0, 0, 0, 0⟩
  failed := []
  faults := []

/-- A fallback heap that answers with every other page. -/
def everyOtherPage (k : Nat) : Nat := 8192 * (k + 1)

end SmMalloc
