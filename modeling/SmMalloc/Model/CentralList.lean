import SmMalloc.Model.Machine

namespace SmMalloc

open Foundation

/-!
# The central list of a bucket

`PoolBucket` keeps its free blocks in a list threaded through the blocks
themselves.  The functions here are whole calls, as they act when no other
thread intervenes: the compare-exchange of `Alloc` and of `FreeInterval` then
succeeds at the first try.
-/

namespace PoolBucket

/-- The loop of `Create`, from `node` on.  The fuel is at least the number of
steps of `elementSize` bytes that the buffer has room for. -/
def createLoop (pData pBufferEnd elementSize : Nat) :
    Nat -> Nat -> UInt32 -> Memory -> Memory × UInt32
  | 0, _, tag, mem => (mem, tag)
  | fuel + 1, node, tag, mem =>
      let next := node + elementSize
      if next + elementSize ≤ pBufferEnd then
        let nextVal : TaggedIndex := ⟨tag, UInt32.ofNat (next - pData)⟩
        createLoop pData pBufferEnd elementSize fuel next (tag + 1)
          (TaggedIndex.store mem node nextVal)
      else (TaggedIndex.store mem node TaggedIndex.invalid, tag)

/-- `PoolBucket::Create` -/
def create (m : Machine) (a i elementSize : Nat) : Machine :=
  let bucket := m.bucket a i
  let built := createLoop bucket.pData bucket.pBufferEnd elementSize
    (bucket.pBufferEnd - bucket.pData + 1) bucket.pData 0 m.mem
  { m with mem := built.1 }.setBucket a i { bucket with head := ⟨0, 0⟩, globalTag := built.2 }

/-- `PoolBucket::Alloc` -/
def alloc (m : Machine) (a i : Nat) : Nat × Machine :=
  let bucket := m.bucket a i
  if bucket.head = TaggedIndex.invalid then (0, m)
  else
    let p := bucket.pData + bucket.head.offset.toNat
    let nextValue := TaggedIndex.load m.mem p
    (p, m.setBucket a i { bucket with head := nextValue })

/-- `PoolBucket::FreeInterval` -/
def freeInterval (m : Machine) (a i pHead pTail : Nat) : Machine :=
  let bucket := m.bucket a i
  let tag := bucket.globalTag
  let nodeValue : TaggedIndex := ⟨tag, UInt32.ofNat (sizeSub pHead bucket.pData)⟩
  { m with mem := TaggedIndex.store m.mem pTail bucket.head }.setBucket a i
    { bucket with head := nodeValue, globalTag := tag + 1 }

def isMyAlloc (bucket : PoolBucket) (p : Nat) : Bool :=
  decide (bucket.pData ≤ p) && decide (p < bucket.pBufferEnd)

end PoolBucket

end SmMalloc
