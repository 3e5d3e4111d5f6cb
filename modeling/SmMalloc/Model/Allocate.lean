import SmMalloc.Model.ThreadCache

namespace SmMalloc

open Foundation

/-!
# Requests to an allocator

`allocate`, `free` and `realloc` of allocator `a`, called by thread `t`.  A
request is served from the thread's cache of its size class, from the central
list of that class or of a suitably aligned class not far above it, and
otherwise by the fallback heap.
-/

namespace Allocator

/-! ## Which bucket a pointer belongs to -/

/-- Pointers up to `kMaxValidAlignment` stand for blocks of size zero. -/
def isReadable (p : Nat) : Bool := decide (kMaxValidAlignment < p)

def findBucket (alloc : Allocator) (p : Nat) : Nat :=
  sizeSub p (alloc.bucketsDataBegin 0) / alloc.bucketSizeInBytes

def isMyAlloc (alloc : Allocator) (p : Nat) : Bool :=
  decide (alloc.pBuffer ≤ p) && decide (p < alloc.pBufferEnd)

def getBucketIndex (alloc : Allocator) (p : Nat) : Int :=
  if alloc.isMyAlloc p = false then -1
  else
    let bucketIndex := alloc.findBucket p
    if alloc.bucketsCount ≤ bucketIndex then -1 else bucketIndex

def getBucketElementsCount (scheme : Partitioning) (alloc : Allocator) (bucketIndex : Nat) : Nat :=
  if alloc.bucketsCount ≤ bucketIndex then 0
  else alloc.bucketSizeInBytes / scheme.getBucketSizeInBytesByIndex bucketIndex % 2 ^ 32

def getUsableSize (scheme : Partitioning) (w : World) (a p : Nat) : Nat :=
  if isReadable p = false then 0
  else
    let bucketIndex := (w.allocs a).findBucket p
    if bucketIndex < (w.allocs a).bucketsCount then scheme.getBucketSizeInBytesByIndex bucketIndex
    else w.heap.getUsableSpace p

end Allocator

/-! ## Assertions inside the size arithmetic -/

namespace World

/-- The assertions of `Align`. -/
def checkAlign (w : World) (val alignment : Nat) : World :=
  let w := w.check .alignPowerOfTwo (alignment &&& sizeSub alignment 1 = 0)
  w.check .alignResult (isAligned (align val alignment) alignment)

/-- The assertion of `GetBucketIndexBySize`. -/
def checkBucketIndexBySize (w : World) (scheme : Partitioning) (bytesCount : Nat) : World :=
  match scheme with
  | .linear => w
  | .float => w.check .getBucketIndexBySizeBelow4Gb (bytesCount < 2 ^ 32 - 1)
  | .piecewise => w.check .getBucketIndexBySizeNotZero (bytesCount > 0)

@[simp] theorem checkAlign_toMachine (w : World) (val alignment : Nat) :
    (w.checkAlign val alignment).toMachine = w.toMachine := by
  simp [checkAlign]

@[simp] theorem checkAlign_faults (w : World) (val alignment : Nat) :
    (w.checkAlign val alignment).faults = w.faults := by
  simp [checkAlign]

@[simp] theorem checkBucketIndexBySize_toMachine (w : World) (scheme : Partitioning)
    (bytesCount : Nat) : (w.checkBucketIndexBySize scheme bytesCount).toMachine = w.toMachine := by
  cases scheme <;> simp [checkBucketIndexBySize]

@[simp] theorem checkBucketIndexBySize_faults (w : World) (scheme : Partitioning)
    (bytesCount : Nat) : (w.checkBucketIndexBySize scheme bytesCount).faults = w.faults := by
  cases scheme <;> simp [checkBucketIndexBySize]

end World

namespace Allocator

/-! ## Allocation -/

/-- The inner loop of `Allocate`: the next bucket whose element size is a
multiple of the alignment.  `none` means that the fuel did not suffice. -/
def nextAligned (scheme : Partitioning) (alignment : Nat) : Nat -> Nat -> Option Nat
  | 0, _ => none
  | fuel + 1, bucketIndex =>
      if isAligned (scheme.getBucketSizeInBytesByIndex (bucketIndex + 1)) alignment then
        some (bucketIndex + 1)
      else nextAligned scheme alignment fuel (bucketIndex + 1)

/-- Fuel for `nextAligned` that suffices for every valid alignment. -/
def alignedSearchSteps : Nat := 256

/-- The outer loop of `Allocate` over the central lists.  The bucket index
grows in every round, and it starts at most 4 below `maxBucketIndex`. -/
def allocateFromCentral (scheme : Partitioning) (enableStatistic : Bool)
    (a alignment maxBucketIndex : Nat) : Nat -> Nat -> World -> Nat × World
  | 0, _, w => (0, w)
  | rounds + 1, bucketIndex, w =>
      if bucketIndex < maxBucketIndex then
        let w := w.check .allocateBucketIndex (bucketIndex < maxBucketCount)
        let popped := PoolBucket.alloc w.toMachine a bucketIndex
        let w := { w with toMachine := popped.2 }
        if popped.1 ≠ 0 then
          let w := w.countGlobal enableStatistic a (fun stats =>
            { stats with totalAllocationsServed := stats.totalAllocationsServed + 1 })
          (popped.1, w.countBucket enableStatistic a bucketIndex (fun stats =>
            { stats with hitCount := stats.hitCount + 1 }))
        else
          let w := w.countBucket enableStatistic a bucketIndex (fun stats =>
            { stats with missCount := stats.missCount + 1 })
          match nextAligned scheme alignment alignedSearchSteps bucketIndex with
          | some next => allocateFromCentral scheme enableStatistic a alignment maxBucketIndex
              rounds next w
          | none => (0, w)
      else (0, w)

/-- The first part of `Allocate`: the thread cache of the request's own bucket. -/
def allocateFromThreadCache (enableStatistic : Bool) (a t bucketIndex : Nat) (w : World) :
    Nat × World :=
  if bucketIndex < (w.allocs a).bucketsCount then
    let cached := allocFromCache w t bucketIndex
    if cached.1 ≠ 0 then
      let w := cached.2.countGlobal enableStatistic a (fun stats =>
        { stats with totalAllocationsServed := stats.totalAllocationsServed + 1 })
      (cached.1, w.countBucket enableStatistic a bucketIndex (fun stats =>
        { stats with cacheHitCount := stats.cacheHitCount + 1 }))
    else cached
  else (0, w)

/-- The last part of `Allocate`: the request goes to the fallback heap. -/
def allocateFromGeneric (enableStatistic isValidBucket : Bool) (a bytesCount alignment : Nat)
    (w : World) : Nat × World :=
  let w := w.countGlobal enableStatistic a (fun stats =>
    if isValidBucket then { stats with routingReasonSaturation := stats.routingReasonSaturation + 1 }
    else { stats with routingReasonBySize := stats.routingReasonBySize + 1 })
  let w := w.countGlobal enableStatistic a (fun stats =>
    { stats with totalAllocationsRoutedToDefaultAllocator :=
        stats.totalAllocationsRoutedToDefaultAllocator + 1 })
  let answered := w.heap.alloc bytesCount alignment
  (answered.1, { w with heap := answered.2 })

/-- `Allocator::Allocate<enableStatistic>` -/
def allocate (scheme : Partitioning) (enableStatistic : Bool) (w : World)
    (a t _bytesCount alignment : Nat) : Nat × World :=
  let w := w.check .allocateAlignment (alignment ≤ kMaxValidAlignment)
  if _bytesCount = 0 then (alignment, w)
  else
    let w := w.countGlobal enableStatistic a (fun stats =>
      { stats with totalNumAllocationAttempts := stats.totalNumAllocationAttempts + 1 })
    let bytesCount := align _bytesCount alignment
    let w := w.checkAlign _bytesCount alignment
    let bucketIndex := scheme.getBucketIndexBySize bytesCount
    let w := w.checkBucketIndexBySize scheme bytesCount
    let cached := allocateFromThreadCache enableStatistic a t bucketIndex w
    if cached.1 ≠ 0 then cached
    else
      let bucketsCount := (cached.2.allocs a).bucketsCount
      let maxBucketIndex := min bucketsCount ((bucketIndex + 4) % 2 ^ 64)
      let popped := allocateFromCentral scheme enableStatistic a alignment maxBucketIndex
        4 bucketIndex cached.2
      if popped.1 ≠ 0 then popped
      else allocateFromGeneric enableStatistic (bucketIndex < bucketsCount) a _bytesCount alignment
        popped.2

/-- `Allocator::Alloc` -/
def alloc (scheme : Partitioning) (w : World) (a t bytesCount alignment : Nat) : Nat × World :=
  allocate scheme true w a t bytesCount alignment

/-! ## Release -/

def free (w : World) (a t p : Nat) : World :=
  if isReadable p = false then w
  else
    let bucketIndex := (w.allocs a).findBucket p
    if bucketIndex < (w.allocs a).bucketsCount then
      let w := w.countBucket true a bucketIndex (fun stats =>
        { stats with freeCount := stats.freeCount + 1 })
      let released := releaseToCache true w t bucketIndex p
      if released.1 then released.2
      else
        let w := released.2
        { w with toMachine := PoolBucket.freeInterval w.toMachine a bucketIndex p p }
    else { w with heap := w.heap.free p }

/-! ## Reallocation -/

/-- `std::memmove`.  A move to the null pointer is undefined in C++; it is
recorded, and the memory stays as it is. -/
def memmove (w : World) (target source count : Nat) : World :=
  if target = 0 then w.fault .storeThroughNull
  else { w with mem := w.mem.move target source count }

/-- `GenericAllocator::Realloc` -/
def genericRealloc (w : World) (p bytesCount alignment : Nat) : Nat × World :=
  let answered := w.heap.alloc bytesCount alignment
  let w := { w with heap := answered.2 }
  let p2 := answered.1
  if p2 = 0 then (0, w)
  else
    let w := if p ≠ 0 then memmove w p2 p (min (w.heap.getUsableSpace p) bytesCount) else w
    (p2, { w with heap := w.heap.free p })

def realloc (scheme : Partitioning) (w : World) (a t p bytesCount alignment : Nat) : Nat × World :=
  if isReadable p = false then alloc scheme w a t bytesCount alignment
  else if bytesCount = 0 then (0, free w a t p)
  else
    let bucketIndex := (w.allocs a).findBucket p
    if bucketIndex < (w.allocs a).bucketsCount then
      let elementSize := scheme.getBucketSizeInBytesByIndex bucketIndex
      if bytesCount ≤ elementSize then (p, w)
      else
        let allocated := alloc scheme w a t bytesCount alignment
        let p2 := allocated.1
        let w := allocated.2
        if p2 = 0 then (0, w)
        else
          let w := if isReadable p then memmove w p2 p elementSize else w
          (p2, free w a t p)
    else
      let _bytesCount := align bytesCount alignment
      let w := w.checkAlign bytesCount alignment
      let _bucketIndex := scheme.getBucketIndexBySize _bytesCount
      let w := w.checkBucketIndexBySize scheme _bytesCount
      if _bucketIndex < (w.allocs a).bucketsCount then
        let allocated := alloc scheme w a t bytesCount alignment
        let p2 := allocated.1
        let w := allocated.2
        let w := if isReadable p then
            memmove w p2 p (min (w.heap.getUsableSpace p) bytesCount)
          else w
        (p2, { w with heap := w.heap.free p })
      else
        let w := w.check .reallocReadable (isReadable p)
        genericRealloc w p bytesCount alignment

end Allocator

end SmMalloc
