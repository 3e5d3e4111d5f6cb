import SmMalloc.Atomic.Stack
import SmMalloc.Session.Run

namespace SmMalloc

open Foundation

/-!
# The whole allocator, one atomic step at a time

Any number of threads without a cache call `Alloc` and `Free` of one allocator.
All buckets lie in one memory, byte by byte, with the blocks of the clients
among those of the lists, and again each access to shared data is a step of its
own.  A call of `Allocate` goes from list to list, and what it has found out
about one of them may be out of date when it gets to the next.

A call of the fallback heap is one step, as the heap synchronises itself.  The
counters of the statistics are left out, and so is the level of the thread
caches, which answers null to threads that have none.
-/

/-- What a call of `Allocate` was asked for, and where its search ends. -/
structure Request where
  bytesCount : Nat
  alignment : Nat
  maxBucketIndex : Nat
  deriving DecidableEq

/-- Where a thread is in a call of the allocator. -/
inductive Errand
  | idle
  | round (request : Request) (bucketIndex : Nat)
  | popping (request : Request) (bucketIndex : Nat) (point : Point)
  | generic (request : Request)
  | pushing (bucketIndex : Nat) (point : Point)
  deriving DecidableEq

/-- Where it is in bucket `i`. -/
def Errand.pointIn (i : Nat) : Errand -> Point
  | .popping _ bucketIndex point => if bucketIndex = i then point else .idle
  | .pushing bucketIndex point => if bucketIndex = i then point else .idle
  | _ => .idle

namespace Point

/-- A point of a call of `Alloc`. -/
def InAlloc : Point -> Prop
  | .allocLoaded _ => True
  | .allocRead _ _ => True
  | _ => False

/-- A point of a call of `FreeInterval`. -/
def InFree : Point -> Prop
  | .freeInterval _ => True
  | .freeTagged _ _ => True
  | .freeLoaded _ _ _ => True
  | .freeLinked _ _ _ => True
  | _ => False

end Point

/-- What a step of a call leads to. -/
inductive Onward
  | stays (point : Point)
  | returns (p : Nat)

namespace PoolBucket

/-- The next step of a call of `Alloc`. -/
def allocStep (m : Machine) (a i : Nat) (point : Point) : Onward × Machine :=
  let bucket := m.bucket a i
  match point with
  | .allocLoaded headValue =>
      if headValue = TaggedIndex.invalid then (.returns 0, m)
      else
        let p := bucket.pData + headValue.offset.toNat
        (.stays (.allocRead headValue (TaggedIndex.load m.mem p)), m)
  | .allocRead headValue nextValue =>
      if bucket.head = headValue then
        (.returns (bucket.pData + headValue.offset.toNat),
          m.setBucket a i { bucket with head := nextValue })
      else (.stays (.allocLoaded bucket.head), m)
  | point => (.stays point, m)

/-- The next step of a call of `FreeInterval`. -/
def freeIntervalStep (m : Machine) (a i : Nat) (point : Point) : Onward × Machine :=
  let bucket := m.bucket a i
  match point with
  | .freeInterval chain =>
      (.stays (.freeTagged chain ⟨bucket.globalTag, UInt32.ofNat chain.pHead⟩),
        m.setBucket a i { bucket with globalTag := bucket.globalTag + 1 })
  | .freeTagged chain nodeValue => (.stays (.freeLoaded chain nodeValue bucket.head), m)
  | .freeLoaded chain nodeValue headValue =>
      (.stays (.freeLinked chain nodeValue headValue),
        { m with mem := TaggedIndex.store m.mem (bucket.pData + chain.pTail) headValue })
  | .freeLinked chain nodeValue headValue =>
      if bucket.head = headValue then
        (.returns 0, m.setBucket a i { bucket with head := nodeValue })
      else (.stays (.freeLoaded chain nodeValue bucket.head), m)
  | point => (.stays point, m)

end PoolBucket

/-- The world, what the clients hold, and where every thread is.  The calls of
`FreeInterval` on each bucket are counted. -/
structure AtomicPool where
  world : World
  held : List Nat
  errand : Nat -> Errand
  freeIntervalCalls : Nat -> Nat

/-- The calls that a thread may begin, its next step, and what clients write. -/
inductive PoolMove
  | alloc (t bytesCount alignment : Nat)
  | free (t p : Nat)
  | proceed (t : Nat)
  | write (p k : Nat) (v : UInt8)

namespace AtomicPool

/-- Thread `t` goes on to something else. -/
def goto (s : AtomicPool) (t : Nat) (errand : Errand) : AtomicPool :=
  { s with errand := Function.update s.errand t errand }

/-- The machine has changed. -/
def become (s : AtomicPool) (m : Machine) : AtomicPool :=
  { s with world := { s.world with toMachine := m } }

variable (scheme : Partitioning) (a : Nat)

/-- After a miss in bucket `i`: the inner loop of `Allocate`. -/
def onMiss (request : Request) (i : Nat) : Errand :=
  match Allocator.nextAligned scheme request.alignment Allocator.alignedSearchSteps i with
  | some next => .round request next
  | none => .generic request

/-- What a step of `Alloc` on bucket `i` means for the call of `Allocate`. -/
def popped (s : AtomicPool) (t : Nat) (request : Request) (i : Nat) : Onward -> AtomicPool
  | .stays point => s.goto t (.popping request i point)
  | .returns p =>
      if p ≠ 0 then { s with held := p :: s.held }.goto t .idle
      else s.goto t (onMiss scheme request i)

/-- What a step of `FreeInterval` on bucket `i` means for the call of `Free`. -/
def pushed (s : AtomicPool) (t i : Nat) : Onward -> AtomicPool
  | .stays point => s.goto t (.pushing i point)
  | .returns _ => s.goto t .idle

/-- The next step of thread `t`. -/
def proceed (s : AtomicPool) (t : Nat) : AtomicPool :=
  match s.errand t with
  | .idle => s
  | .round request i =>
      if i < request.maxBucketIndex then
        s.goto t (.popping request i (.allocLoaded (s.world.bucket a i).head))
      else s.goto t (.generic request)
  | .popping request i point =>
      let result := PoolBucket.allocStep s.world.toMachine a i point
      (s.become result.2).popped scheme t request i result.1
  | .generic request =>
      let answered := s.world.heap.alloc request.bytesCount request.alignment
      let s := s.become { s.world.toMachine with heap := answered.2 }
      { s with held := if answered.1 = 0 then s.held else answered.1 :: s.held }.goto t .idle
  | .pushing i point =>
      let result := PoolBucket.freeIntervalStep s.world.toMachine a i point
      (s.become result.2).pushed t i result.1

/-- `Allocate` up to its first list. -/
def beginAlloc (s : AtomicPool) (t _bytesCount alignment : Nat) : AtomicPool :=
  if _bytesCount = 0 then s
  else
    let bytesCount := align _bytesCount alignment
    let bucketIndex := scheme.getBucketIndexBySize bytesCount
    let bucketsCount := (s.world.allocs a).bucketsCount
    let maxBucketIndex := min bucketsCount ((bucketIndex + 4) % 2 ^ 64)
    s.goto t (.round ⟨_bytesCount, alignment, maxBucketIndex⟩ bucketIndex)

/-- `Free` up to `FreeInterval`, or all of it. -/
def beginFree (s : AtomicPool) (t p : Nat) : AtomicPool :=
  if Allocator.isReadable p = false then s
  else
    let s := { s with held := s.held.erase p }
    let bucketIndex := (s.world.allocs a).findBucket p
    if bucketIndex < (s.world.allocs a).bucketsCount then
      let o := sizeSub p (s.world.bucket a bucketIndex).pData
      let calls := s.freeIntervalCalls bucketIndex + 1
      { s with freeIntervalCalls := Function.update s.freeIntervalCalls bucketIndex calls }.goto t
        (.pushing bucketIndex (.freeInterval ⟨o, []⟩))
    else s.become { s.world.toMachine with heap := s.world.heap.free p }

def step (s : AtomicPool) : PoolMove -> AtomicPool
  | .alloc t bytesCount alignment => s.beginAlloc scheme a t bytesCount alignment
  | .free t p => s.beginFree a t p
  | .proceed t => s.proceed scheme a t
  | .write p k v => s.become { s.world.toMachine with mem := s.world.mem.poke (p + k) v }

/-- One more call of `FreeInterval` on bucket `i` finds a tag that is new. -/
def TagLeft (s : AtomicPool) (i : Nat) : Prop :=
  s.freeIntervalCalls i + 1 < 2 ^ 32 -
    ((s.world.allocs a).bucketSizeInBytes / scheme.getBucketSizeInBytesByIndex i - 1)

/-- A thread makes one call at a time, and clients use only what they hold. -/
def Allowed (s : AtomicPool) : PoolMove -> Prop
  | .alloc t bytesCount alignment =>
      s.errand t = .idle ∧ bytesCount < 2 ^ 64 ∧ ValidAlignment alignment
  | .free t p =>
      s.errand t = .idle ∧ (p ≤ kMaxValidAlignment ∨ p ∈ s.held) ∧
        ((s.world.allocs a).findBucket p < (s.world.allocs a).bucketsCount ->
          s.TagLeft scheme a ((s.world.allocs a).findBucket p))
  | .proceed _ => True
  | .write p k _ => p ∈ s.held ∧ k < Allocator.getUsableSize scheme s.world a p

/-- The allocator has just been set up, and nobody is at work. -/
def Start (_bucketsCount _bucketSizeInBytes : Nat) (s : AtomicPool) : Prop :=
  ∃ w, Fresh a w ∧
    w.heap.answer (bufferBytes _bucketsCount _bucketSizeInBytes) kMaxValidAlignment ≠ 0 ∧
    s = ⟨Allocator.init scheme w a _bucketsCount _bucketSizeInBytes, [], fun _ => .idle, fun _ => 0⟩

/-- Every interleaving of the steps of all threads. -/
def system (_bucketsCount _bucketSizeInBytes : Nat) : Transition AtomicPool PoolMove where
  start := Start scheme a _bucketsCount _bucketSizeInBytes
  allowed := Allowed scheme a
  next := step scheme a

end AtomicPool

/-! ## What a step can be -/

variable {a i : Nat} {m : Machine}

namespace PoolBucket

/-- What the next step of `Alloc` on bucket `i` can be. -/
inductive AllocSteps (m : Machine) (a i : Nat) : Point -> Onward -> Machine -> Prop
  | null : AllocSteps m a i (.allocLoaded TaggedIndex.invalid) (.returns 0) m
  | read (headValue : TaggedIndex) : headValue ≠ TaggedIndex.invalid ->
      AllocSteps m a i (.allocLoaded headValue)
        (.stays (.allocRead headValue
          (TaggedIndex.load m.mem ((m.bucket a i).pData + headValue.offset.toNat)))) m
  | pop (headValue nextValue : TaggedIndex) : (m.bucket a i).head = headValue ->
      AllocSteps m a i (.allocRead headValue nextValue)
        (.returns ((m.bucket a i).pData + headValue.offset.toNat))
        (m.setBucket a i { m.bucket a i with head := nextValue })
  | reload (headValue nextValue : TaggedIndex) : (m.bucket a i).head ≠ headValue ->
      AllocSteps m a i (.allocRead headValue nextValue)
        (.stays (.allocLoaded (m.bucket a i).head)) m

theorem allocSteps (m : Machine) (a i : Nat) {point : Point} (inside : point.InAlloc) :
    AllocSteps m a i point (allocStep m a i point).1 (allocStep m a i point).2 := by
  cases point with
  | allocLoaded headValue =>
      by_cases empty : headValue = TaggedIndex.invalid
      · subst empty
        exact .null
      · simp only [allocStep, if_neg empty]
        exact .read headValue empty
  | allocRead headValue nextValue =>
      by_cases same : (m.bucket a i).head = headValue
      · simp only [allocStep, if_pos same]
        exact .pop headValue nextValue same
      · simp only [allocStep, if_neg same]
        exact .reload headValue nextValue same
  | _ => exact absurd inside id

/-- What the next step of `FreeInterval` on bucket `i` can be. -/
inductive FreeSteps (m : Machine) (a i : Nat) : Point -> Onward -> Machine -> Prop
  | draw (chain : Chain) : FreeSteps m a i (.freeInterval chain)
      (.stays (.freeTagged chain ⟨(m.bucket a i).globalTag, UInt32.ofNat chain.pHead⟩))
      (m.setBucket a i { m.bucket a i with globalTag := (m.bucket a i).globalTag + 1 })
  | load (chain : Chain) (nodeValue : TaggedIndex) :
      FreeSteps m a i (.freeTagged chain nodeValue)
        (.stays (.freeLoaded chain nodeValue (m.bucket a i).head)) m
  | store (chain : Chain) (nodeValue headValue : TaggedIndex) :
      FreeSteps m a i (.freeLoaded chain nodeValue headValue)
        (.stays (.freeLinked chain nodeValue headValue))
        { m with mem := TaggedIndex.store m.mem ((m.bucket a i).pData + chain.pTail) headValue }
  | push (chain : Chain) (nodeValue headValue : TaggedIndex) : (m.bucket a i).head = headValue ->
      FreeSteps m a i (.freeLinked chain nodeValue headValue) (.returns 0)
        (m.setBucket a i { m.bucket a i with head := nodeValue })
  | retry (chain : Chain) (nodeValue headValue : TaggedIndex) : (m.bucket a i).head ≠ headValue ->
      FreeSteps m a i (.freeLinked chain nodeValue headValue)
        (.stays (.freeLoaded chain nodeValue (m.bucket a i).head)) m

theorem freeSteps (m : Machine) (a i : Nat) {point : Point} (inside : point.InFree) :
    FreeSteps m a i point (freeIntervalStep m a i point).1 (freeIntervalStep m a i point).2 := by
  cases point with
  | freeInterval chain => exact .draw chain
  | freeTagged chain nodeValue => exact .load chain nodeValue
  | freeLoaded chain nodeValue headValue => exact .store chain nodeValue headValue
  | freeLinked chain nodeValue headValue =>
      by_cases same : (m.bucket a i).head = headValue
      · simp only [freeIntervalStep, if_pos same]
        exact .push chain nodeValue headValue same
      · simp only [freeIntervalStep, if_neg same]
        exact .retry chain nodeValue headValue same
  | _ => exact absurd inside id

end PoolBucket

end SmMalloc
