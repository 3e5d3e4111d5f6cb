import SmMalloc.Foundation.Transition
import SmMalloc.Model.CentralList
import SmMalloc.Pool.Create

namespace SmMalloc

open Foundation

/-!
# One bucket, one atomic step at a time

Here `Alloc` and `FreeInterval` are not whole calls.  Any number of threads
work on the list of one bucket, and each access to the shared state is a step
of its own: the loads of the head, the two kinds of compare-exchange, the
`fetch_add` on the tag counter, the read of the link of the head block, and
every write of a link.  Between any two steps of one thread the others may take
any number of theirs.  Memory is sequentially consistent.

A block is named by its offset, and all that matters of its bytes is the link
word at its start.  A client may overwrite it as long as it holds the block.
Blocks that a thread has cached for a return to the list are in its stack
`pStorageL1`, whose order is the order of the chain that is returned; any block
that a client holds may get there, from the array of level 0 or directly.
-/

/-- The blocks of a call of `FreeInterval`, from `pHead` to `pTail`. -/
structure Chain where
  pHead : Nat
  rest : List Nat
  deriving DecidableEq

namespace Chain

def blocks (chain : Chain) : List Nat := chain.pHead :: chain.rest

def pTail (chain : Chain) : Nat := chain.rest.getLastD chain.pHead

end Chain

/-- Where a thread is, with its local variables. -/
inductive Point
  | idle
  | allocLoaded (headValue : TaggedIndex)
  | allocRead (headValue nextValue : TaggedIndex)
  | linking (chain : Chain) (localTag : UInt32) (pPrevBlockMemory : Nat) (todo : List Nat)
  | freeInterval (chain : Chain)
  | freeTagged (chain : Chain) (nodeValue : TaggedIndex)
  | freeLoaded (chain : Chain) (nodeValue headValue : TaggedIndex)
  | freeLinked (chain : Chain) (nodeValue headValue : TaggedIndex)
  deriving DecidableEq

/-- A bucket and the threads that work on it. -/
structure AtomicBucket where
  head : TaggedIndex
  globalTag : UInt32
  link : Nat -> TaggedIndex
  held : List Nat
  pStorageL1 : Nat -> List Nat
  point : Nat -> Point

/-- The calls that a thread may begin, its next step, and what clients write. -/
inductive Move
  | alloc (t : Nat)
  | free (t o : Nat)
  | releaseToCache (t o : Nat)
  | allocFromCache (t : Nat)
  | returnL1CacheToMaster (t count : Nat)
  | proceed (t : Nat)
  | write (o : Nat) (value : TaggedIndex)

/-- The thread whose step it is. -/
def Move.thread : Move -> Option Nat
  | .alloc t => some t
  | .free t _ => some t
  | .releaseToCache t _ => some t
  | .allocFromCache t => some t
  | .returnL1CacheToMaster t _ => some t
  | .proceed t => some t
  | .write _ _ => none

namespace AtomicBucket

/-- Thread `t` gets to a point. -/
def goto (s : AtomicBucket) (t : Nat) (point : Point) : AtomicBucket :=
  { s with point := Function.update s.point t point }

/-- The next step of thread `t`. -/
def proceed (s : AtomicBucket) (t : Nat) : AtomicBucket :=
  match s.point t with
  | .idle => s
  | .allocLoaded headValue =>
      if headValue = TaggedIndex.invalid then s.goto t .idle
      else s.goto t (.allocRead headValue (s.link headValue.offset.toNat))
  | .allocRead headValue nextValue =>
      if s.head = headValue then
        { s with head := nextValue, held := headValue.offset.toNat :: s.held }.goto t .idle
      else s.goto t (.allocLoaded s.head)
  | .linking chain _ _ [] => s.goto t (.freeInterval chain)
  | .linking chain localTag pPrevBlockMemory (o :: todo) =>
      { s with link := Function.update s.link pPrevBlockMemory ⟨localTag, UInt32.ofNat o⟩ }.goto t
        (.linking chain (localTag + 1) o todo)
  | .freeInterval chain =>
      { s with globalTag := s.globalTag + 1 }.goto t
        (.freeTagged chain ⟨s.globalTag, UInt32.ofNat chain.pHead⟩)
  | .freeTagged chain nodeValue => s.goto t (.freeLoaded chain nodeValue s.head)
  | .freeLoaded chain nodeValue headValue =>
      { s with link := Function.update s.link chain.pTail headValue }.goto t
        (.freeLinked chain nodeValue headValue)
  | .freeLinked chain nodeValue headValue =>
      if s.head = headValue then { s with head := nodeValue }.goto t .idle
      else s.goto t (.freeLoaded chain nodeValue s.head)

def step (s : AtomicBucket) : Move -> AtomicBucket
  | .alloc t => s.goto t (.allocLoaded s.head)
  | .free t o => { s with held := s.held.erase o }.goto t (.freeInterval ⟨o, []⟩)
  | .releaseToCache t o =>
      { s with
        held := s.held.erase o
        pStorageL1 := Function.update s.pStorageL1 t (s.pStorageL1 t ++ [o]) }
  | .allocFromCache t =>
      match (s.pStorageL1 t).getLast? with
      | none => s
      | some o => { s with
          held := o :: s.held
          pStorageL1 := Function.update s.pStorageL1 t (s.pStorageL1 t).dropLast }
  | .returnL1CacheToMaster t count =>
      let firstElementToReturn := (s.pStorageL1 t).length - min count (s.pStorageL1 t).length
      let left := (s.pStorageL1 t).take firstElementToReturn
      match (s.pStorageL1 t).drop firstElementToReturn with
      | [] => s
      | pHead :: rest =>
          { s with pStorageL1 := Function.update s.pStorageL1 t left }.goto t
            (.linking ⟨pHead, rest⟩ 0xFFFFFF pHead rest)
  | .proceed t => s.proceed t
  | .write o value => { s with link := Function.update s.link o value }

/-- A thread makes one call at a time, and clients use only what they hold. -/
def Allowed (s : AtomicBucket) : Move -> Prop
  | .alloc t => s.point t = .idle
  | .free t o => s.point t = .idle ∧ o ∈ s.held
  | .releaseToCache t o => s.point t = .idle ∧ o ∈ s.held
  | .allocFromCache t => s.point t = .idle
  | .returnL1CacheToMaster t _ => s.point t = .idle
  | .proceed _ => True
  | .write o _ => o ∈ s.held

instance (s : AtomicBucket) : forall move, Decidable (s.Allowed move)
  | .alloc t => inferInstanceAs (Decidable (s.point t = .idle))
  | .free _ _ => inferInstanceAs (Decidable (_ ∧ _))
  | .releaseToCache _ _ => inferInstanceAs (Decidable (_ ∧ _))
  | .allocFromCache t => inferInstanceAs (Decidable (s.point t = .idle))
  | .returnL1CacheToMaster t _ => inferInstanceAs (Decidable (s.point t = .idle))
  | .proceed _ => inferInstanceAs (Decidable True)
  | .write o _ => inferInstanceAs (Decidable (o ∈ s.held))

/-- Bucket `i` of allocator `a`, with nobody at work and all blocks on the list. -/
def ofBucket (m : Machine) (a i : Nat) : AtomicBucket where
  head := (m.bucket a i).head
  globalTag := (m.bucket a i).globalTag
  link := linksAt m.mem (m.bucket a i).pData
  held := []
  pStorageL1 := fun _ => []
  point := fun _ => .idle

/-- A bucket of `size` bytes that `Create` has just cut into blocks. -/
def Start (elementSize size : Nat) (s : AtomicBucket) : Prop :=
  ∃ (m : Machine) (a i : Nat), (m.bucket a i).pBufferEnd = (m.bucket a i).pData + size ∧
    s = ofBucket (PoolBucket.create m a i elementSize) a i

/-- Every interleaving of the steps of all threads. -/
def system (elementSize size : Nat) : Transition AtomicBucket Move where
  start := Start elementSize size
  allowed := Allowed
  next := step

instance (elementSize size : Nat) (s : AtomicBucket) (move : Move) :
    Decidable ((system elementSize size).allowed s move) :=
  inferInstanceAs (Decidable (s.Allowed move))

end AtomicBucket

end SmMalloc
