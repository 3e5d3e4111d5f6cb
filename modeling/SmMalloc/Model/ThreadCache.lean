import SmMalloc.Model.CentralList

namespace SmMalloc

open Foundation

/-!
# The two levels of a thread's cache bucket

`tls t i` is bucket `i` of thread `t`.  Level 0 is a small array inside the
cache bucket, level 1 a larger stack on the fallback heap.  A full level 1
hands half of its blocks back to the central list as one chain.
-/

namespace World

/-- The cache bucket `GetTlsBucket(i)` as seen by thread `t`. -/
def setTls (w : World) (t i : Nat) (self : TlsPoolBucket) : World :=
  { w with toMachine := w.toMachine.setTls t i self }

@[simp] theorem setTls_toMachine (w : World) (t i : Nat) (self : TlsPoolBucket) :
    (w.setTls t i self).toMachine = w.toMachine.setTls t i self := rfl

@[simp] theorem setTls_failed (w : World) (t i : Nat) (self : TlsPoolBucket) :
    (w.setTls t i self).failed = w.failed := rfl

/-- Push a block onto the level 1 stack.  A store through a null stack does
not happen.  A store past the allocated slots is recorded, and it goes to
whatever memory lies there. -/
def pushL1 (w : World) (t i : Nat) (offset : UInt32) : World :=
  let self := w.tls t i
  if self.pStorageL1 = 0 then
    (w.fault .storeThroughNull).setTls t i { self with numElementsL1 := self.numElementsL1 + 1 }
  else
    let w := if 4 * (self.numElementsL1 + 1) ≤ w.heap.getUsableSpace self.pStorageL1 then w
      else
        let cell := self.pStorageL1 + 4 * self.numElementsL1
        { w.fault .storePastStack with mem := w.mem.write cell 4 offset.toNat }
    w.setTls t i { self with
      storageL1 := Function.update self.storageL1 self.numElementsL1 offset
      numElementsL1 := self.numElementsL1 + 1 }

end World

namespace TlsPoolBucket

/-- The chain-building loop of `ReturnL1CacheToMaster`: the blocks in stack
slots `i`, `i + 1`, ... are linked behind the block at `pPrevBlockMemory`.
The result has the memory and the last block of the chain. -/
def linkChain (pBucketData : Nat) (pStorageL1 : Nat -> UInt32) :
    Nat -> Nat -> UInt32 -> Nat -> Memory -> Memory × Nat
  | 0, _, _, pPrevBlockMemory, mem => (mem, pPrevBlockMemory)
  | remaining + 1, i, localTag, pPrevBlockMemory, mem =>
      let offset := pStorageL1 i
      linkChain pBucketData pStorageL1 remaining (i + 1) (localTag + 1)
        (pBucketData + offset.toNat) (TaggedIndex.store mem pPrevBlockMemory ⟨localTag, offset⟩)

def returnL1CacheToMaster (w : World) (t i count : Nat) : World :=
  let self := w.tls t i
  if count = 0 then w
  else
    let w := w.check .returnL1CacheToMasterBucket self.pBucket.isSome
    if self.numElementsL1 = 0 then w
    else
      let count := min count self.numElementsL1
      let firstElementToReturn := self.numElementsL1 - count
      let pHead := self.pBucketData + (self.storageL1 firstElementToReturn).toNat
      let chain := linkChain self.pBucketData self.storageL1 (count - 1)
        (firstElementToReturn + 1) 0xFFFFFF pHead w.mem
      match self.pBucket with
      | none => w.fault .storeThroughNull
      | some (b, j) =>
          let m := PoolBucket.freeInterval { w.toMachine with mem := chain.1 } b j pHead chain.2
          let shortened := { self with numElementsL1 := self.numElementsL1 - count }
          { w with toMachine := m.setTls t i shortened }

end TlsPoolBucket

namespace Allocator

def allocFromCache (w : World) (t i : Nat) : Nat × World :=
  let self := w.tls t i
  if self.numElementsL0 > 0 then
    let w := w.check .allocFromCacheBucketData (self.pBucketData ≠ 0)
    let numElementsL0 := self.numElementsL0 - 1
    (self.pBucketData + (self.storageL0 numElementsL0).toNat,
      w.setTls t i { self with numElementsL0 := numElementsL0 })
  else if self.numElementsL1 > 0 then
    let w := w.check .allocFromCacheBucketData (self.pBucketData ≠ 0)
    let w := w.check .allocFromCacheL0Empty (self.numElementsL0 = 0)
    let numElementsL1 := self.numElementsL1 - 1
    (self.pBucketData + (self.storageL1 numElementsL1).toNat,
      w.setTls t i { self with numElementsL1 := numElementsL1 })
  else (0, w)

/-- The end of the bucket that a cache bucket points to. -/
def cachedBufferEnd (w : World) (self : TlsPoolBucket) : Nat :=
  match self.pBucket with
  | none => 0
  | some (b, j) => (w.bucket b j).pBufferEnd

def releaseToCache (useCacheL0 : Bool) (w : World) (t i p : Nat) : Bool × World :=
  let self := w.tls t i
  if self.maxElementsCount = 0 then (false, w)
  else
    let w := w.check .releaseToCacheBucket self.pBucket.isSome
    let w := w.check .releaseToCacheBucketData (self.pBucketData ≠ 0)
    let w := w.check .releaseToCacheRange
      (decide (self.pBucketData ≤ p) && decide (p < cachedBufferEnd w self))
    let offset := UInt32.ofNat (sizeSub p self.pBucketData)
    if useCacheL0 ∧ self.numElementsL0 < maxCacheItemsCount then
      (true, w.setTls t i { self with
        storageL0 := Function.update self.storageL0 self.numElementsL0 offset
        numElementsL0 := self.numElementsL0 + 1 })
    else if self.numElementsL1 < self.maxElementsCount then (true, w.pushL1 t i offset)
    else
      let halfOfElements := self.numElementsL1 >>> 1
      let w := TlsPoolBucket.returnL1CacheToMaster w t i halfOfElements
      (true, w.pushL1 t i offset)

end Allocator

end SmMalloc
