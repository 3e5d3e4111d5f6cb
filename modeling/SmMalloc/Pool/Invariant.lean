import SmMalloc.Foundation.Custody
import SmMalloc.Pool.Geometry

namespace SmMalloc

open Foundation

/-!
# Who keeps the blocks of a bucket

Every block of a bucket is on the central list, in the cache bucket of one
thread, or outside the allocator.  `BucketInv` says so for one bucket, as a
custody of block offsets; `PoolInv` says so for all buckets of an allocator,
with the addresses that are outside in one list `out`.

Nothing here mentions the operations.  The lemmas say which changes of the
machine leave the invariant alone, so that each operation only has to account
for the one bucket that it touches.
-/

/-- The link words of the blocks of a bucket, by offset. -/
def linksAt (mem : Memory) (pData : Nat) : Nat -> TaggedIndex :=
  fun o => TaggedIndex.load mem (pData + o)

namespace TlsPoolBucket

def offsetsL0 (self : TlsPoolBucket) : List Nat :=
  (List.range self.numElementsL0).map (fun k => (self.storageL0 k).toNat)

def offsetsL1 (self : TlsPoolBucket) : List Nat :=
  (List.range self.numElementsL1).map (fun k => (self.storageL1 k).toNat)

/-- The blocks of both levels. -/
def offsets (self : TlsPoolBucket) : List Nat := self.offsetsL0 ++ self.offsetsL1

/-- How full the two levels may get.  A level 1 for a single block would never
be flushed, because half of it is nothing; without a level 1 nothing is cached.
The number of slots of the stack is a 32-bit number. -/
structure Bounded (slot : TlsPoolBucket) : Prop where
  levelL0 : slot.numElementsL0 ≤ maxCacheItemsCount
  levelL1 : slot.numElementsL1 ≤ slot.maxElementsCount
  room : slot.maxElementsCount ≠ 1
  closed : slot.maxElementsCount = 0 -> slot.numElementsL0 = 0
  slots : slot.maxElementsCount + maxCacheItemsCount < 2 ^ 32

/-- The stack has a slot for every block of both levels. -/
structure Backed (heap : GenericAllocator) (slot : TlsPoolBucket) : Prop where
  stored : slot.pStorageL1 ≠ 0
  room : 4 * (slot.maxElementsCount + maxCacheItemsCount) ≤ heap.getUsableSpace slot.pStorageL1

/-- Using a cache bucket changes its contents, not what it is attached to.  The
array of level 0 ends where `beyond` begins. -/
structure Kept (old new : TlsPoolBucket) : Prop where
  pBucket : new.pBucket = old.pBucket
  pBucketData : new.pBucketData = old.pBucketData
  pStorageL1 : new.pStorageL1 = old.pStorageL1
  maxElementsCount : new.maxElementsCount = old.maxElementsCount
  bounded : old.Bounded -> new.Bounded
  beyond : forall k, maxCacheItemsCount ≤ k -> new.storageL0 k = old.storageL0 k

theorem Kept.refl (self : TlsPoolBucket) : self.Kept self :=
  ⟨rfl, rfl, rfl, rfl, id, fun _ _ => rfl⟩

theorem Kept.trans {first second third : TlsPoolBucket} (before : first.Kept second)
    (after : second.Kept third) : first.Kept third where
  pBucket := after.pBucket.trans before.pBucket
  pBucketData := after.pBucketData.trans before.pBucketData
  pStorageL1 := after.pStorageL1.trans before.pStorageL1
  maxElementsCount := after.maxElementsCount.trans before.maxElementsCount
  bounded := fun bounded => after.bounded (before.bounded bounded)
  beyond := fun k past => (after.beyond k past).trans (before.beyond k past)

theorem Backed.kept {old new : TlsPoolBucket} {heap heap' : GenericAllocator}
    (backed : old.Backed heap) (kept : old.Kept new)
    (space : heap.getUsableSpace old.pStorageL1 ≤ heap'.getUsableSpace old.pStorageL1) :
    new.Backed heap' where
  stored := by rw [kept.pStorageL1]; exact backed.stored
  room := by
    rw [kept.maxElementsCount, kept.pStorageL1]
    exact Nat.le_trans backed.room space

end TlsPoolBucket

/-- The blocks of bucket `i` of allocator `a` that thread `t` has cached. -/
def Machine.cached (m : Machine) (a i t : Nat) : List Nat :=
  if (m.tls t i).pBucket = some (a, i) then (m.tls t i).offsets else []

/-- Those who keep blocks of a bucket. -/
inductive Holder
  | central
  | cache (t : Nat)
  | client
  deriving DecidableEq

/-- What each holder keeps. -/
def Machine.shares (m : Machine) (a i : Nat) (central client : List Nat) : Holder -> List Nat
  | .central => central
  | .cache t => m.cached a i t
  | .client => client

variable {scheme : Partitioning}

/-- The blocks of bucket `i` are divided exactly, and the central list is what
its links say. -/
structure BucketInv (pool : Pool scheme) (m : Machine) (a i : Nat) (central client : List Nat) :
    Prop where
  linked : TaggedIndex.kind.Linked (linksAt m.mem (pool.pData i)) (m.bucket a i).head central
  custody : Custody (m.shares a i central client) (pool.IsBlock i)

/-- A cache bucket in use for bucket `i`. -/
structure Attached (pool : Pool scheme) (i : Nat) (slot : TlsPoolBucket) : Prop where
  bound : i < pool.bucketsCount
  pBucketData : slot.pBucketData = pool.pData i
  pStorageL1 : slot.pStorageL1 ≠ 0

/-- The invariant of allocator `a`, when the addresses in `out` are outside. -/
structure PoolInv (pool : Pool scheme) (a : Nat) (m : Machine) (out : List Nat) : Prop where
  represents : pool.Represents (m.allocs a)
  buckets : forall i, i < pool.bucketsCount ->
    ∃ central, BucketInv pool m a i central (pool.offsets out i)
  attached : forall t i j, (m.tls t i).pBucket = some (a, j) ->
    j = i ∧ Attached pool i (m.tls t i)
  buffer : ⟨pool.base, pool.bucketsCount * pool.bucketSizeInBytes⟩ ∈ m.heap.live

variable {pool : Pool scheme} {m m' : Machine} {a i : Nat} {central client out out' : List Nat}

/-! ## Blocks of a bucket -/

theorem BucketInv.isBlock_central (inv : BucketInv pool m a i central client) {o : Nat}
    (member : o ∈ central) : pool.IsBlock i o :=
  inv.custody.supplied Holder.central member

theorem BucketInv.isBlock_client (inv : BucketInv pool m a i central client) {o : Nat}
    (member : o ∈ client) : pool.IsBlock i o :=
  inv.custody.supplied Holder.client member

theorem BucketInv.isBlock_cached (inv : BucketInv pool m a i central client) {t o : Nat}
    (member : o ∈ m.cached a i t) : pool.IsBlock i o :=
  inv.custody.supplied (Holder.cache t) member

theorem BucketInv.central_client (inv : BucketInv pool m a i central client) {o : Nat}
    (inCentral : o ∈ central) : o ∉ client :=
  fun inClient => inv.custody.disjoint Holder.central Holder.client (by intro h; cases h)
    inCentral inClient

theorem BucketInv.cached_client (inv : BucketInv pool m a i central client) {t o : Nat}
    (inCache : o ∈ m.cached a i t) : o ∉ client :=
  fun inClient => inv.custody.disjoint (Holder.cache t) Holder.client (by intro h; cases h)
    inCache inClient

theorem BucketInv.cached_central (inv : BucketInv pool m a i central client) {t o : Nat}
    (inCache : o ∈ m.cached a i t) : o ∉ central :=
  fun inCentral => inv.custody.disjoint (Holder.cache t) Holder.central (by intro h; cases h)
    inCache inCentral

/-- The order in which the client's addresses are listed does not matter. -/
theorem BucketInv.perm {client' : List Nat} (inv : BucketInv pool m a i central client)
    (perm : client'.Perm client) : BucketInv pool m a i central client' where
  linked := inv.linked
  custody := by
    apply inv.custody.reorder Holder.client perm
    intro other notClient
    cases other with
    | central => rfl
    | cache t => rfl
    | client => exact absurd rfl notClient

/-! ## Changes elsewhere -/

theorem linksAt_congr {mem mem' : Memory} {pData o size : Nat} (fits : o + 8 ≤ size)
    (agree : forall x, pData ≤ x -> x < pData + size -> mem' x = mem x) :
    linksAt mem' pData o = linksAt mem pData o :=
  TaggedIndex.load_congr (fun k bound => agree _ (by omega) (by omega))

/-- A bucket is not affected by changes outside its bytes, its head and its caches. -/
theorem BucketInv.frame (inv : BucketInv pool m a i central client)
    (bound : i < pool.bucketsCount) (head : (m'.bucket a i).head = (m.bucket a i).head)
    (agree : forall x, pool.pData i ≤ x -> x < pool.pData i + pool.bucketSizeInBytes ->
      m'.mem x = m.mem x)
    (cached : forall t, m'.cached a i t = m.cached a i t) :
    BucketInv pool m' a i central client where
  linked := by
    rw [head]
    apply inv.linked.congr
    intro o member
    have fits := (inv.isBlock_central member).end_le bound
    have positive := Pool.element_pos bound
    exact linksAt_congr (by omega) agree
  custody := by
    apply inv.custody.congr
    intro holder
    cases holder with
    | central => rfl
    | cache t => exact cached t
    | client => rfl

theorem cached_congr {t : Nat} (same : m'.tls t i = m.tls t i) :
    m'.cached a i t = m.cached a i t := by
  rw [Machine.cached, Machine.cached, same]

namespace PoolInv

theorem perm (inv : PoolInv pool a m out) (perm : out'.Perm out) : PoolInv pool a m out' where
  represents := inv.represents
  buckets := by
    intro i bound
    rcases inv.buckets i bound with ⟨central, bucket⟩
    exact ⟨central, bucket.perm (Pool.offsets_perm perm)⟩
  attached := inv.attached
  buffer := inv.buffer

/-- An operation that touches only bucket `i` has to account only for it. -/
theorem replace (inv : PoolInv pool a m out) (i : Nat)
    (represents : pool.Represents (m'.allocs a))
    (heads : forall j, j ≠ i -> (m'.bucket a j).head = (m.bucket a j).head)
    (mem : forall x, m'.mem x ≠ m.mem x ->
      pool.pData i ≤ x ∧ x < pool.pData i + pool.bucketSizeInBytes)
    (tls : forall t j, j ≠ i -> m'.tls t j = m.tls t j)
    (attached : forall t j, (m'.tls t i).pBucket = some (a, j) ->
      j = i ∧ Attached pool i (m'.tls t i))
    (buffer : m'.heap = m.heap)
    (elsewhere : forall j, j ≠ i -> pool.offsets out' j = pool.offsets out j)
    (here : ∃ central, BucketInv pool m' a i central (pool.offsets out' i)) :
    PoolInv pool a m' out' where
  represents := represents
  buckets := by
    intro j bound
    by_cases same : j = i
    · subst same; exact here
    · rcases inv.buckets j bound with ⟨central, bucket⟩
      rw [elsewhere j same]
      refine ⟨central, bucket.frame bound (heads j same) ?_ ?_⟩
      · intro x low high
        by_contra changed
        have inside := mem x changed
        rcases Nat.lt_or_gt_of_ne same with before | after
        · have := Pool.bucket_before pool before
          omega
        · have := Pool.bucket_before pool after
          omega
      · intro t
        exact cached_congr (tls t j same)
  attached := by
    intro t j k owned
    by_cases same : j = i
    · subst same; exact attached t k owned
    · rw [tls t j same] at owned ⊢
      exact inv.attached t j k owned
  buffer := by rw [buffer]; exact inv.buffer

/-- Nothing that the invariant speaks about has changed. -/
theorem frame (inv : PoolInv pool a m out) (allocs : m'.allocs a = m.allocs a)
    (mem : forall x, pool.base ≤ x ->
      x < pool.base + pool.bucketsCount * pool.bucketSizeInBytes -> m'.mem x = m.mem x)
    (cached : forall t i, m'.cached a i t = m.cached a i t)
    (attached : forall t i j, (m'.tls t i).pBucket = some (a, j) ->
      j = i ∧ Attached pool i (m'.tls t i))
    (buffer : ⟨pool.base, pool.bucketsCount * pool.bucketSizeInBytes⟩ ∈ m'.heap.live) :
    PoolInv pool a m' out where
  represents := allocs ▸ inv.represents
  buckets := by
    intro i bound
    rcases inv.buckets i bound with ⟨central, bucket⟩
    refine ⟨central, bucket.frame bound ?_ ?_ (fun t => cached t i)⟩
    · rw [Machine.bucket, Machine.bucket, allocs]
    · intro x low high
      have base := pool.base_le_pData i
      have top := Pool.bucket_end_le bound
      exact mem x (by omega) (by omega)
  attached := attached
  buffer := buffer

/-- The calls of the fallback heap do not touch the pool. -/
theorem of_heap (inv : PoolInv pool a m out) {heap : GenericAllocator}
    (buffer : ⟨pool.base, pool.bucketsCount * pool.bucketSizeInBytes⟩ ∈ heap.live) :
    PoolInv pool a { m with heap := heap } out :=
  inv.frame rfl (fun _ _ _ => rfl) (fun _ _ => rfl) inv.attached buffer

/-- An address that no bucket contains may be listed or not. -/
theorem cons_elsewhere (inv : PoolInv pool a m out) {p : Nat}
    (elsewhere : pool.bucketsCount ≤ pool.findBucket p) : PoolInv pool a m (p :: out) where
  represents := inv.represents
  buckets := by
    intro i bound
    rcases inv.buckets i bound with ⟨central, bucket⟩
    refine ⟨central, ?_⟩
    rw [Pool.offsets_cons_of_ne (by omega)]
    exact bucket
  attached := inv.attached
  buffer := inv.buffer

theorem of_cons_elsewhere {p : Nat} (inv : PoolInv pool a m (p :: out))
    (elsewhere : pool.bucketsCount ≤ pool.findBucket p) : PoolInv pool a m out where
  represents := inv.represents
  buckets := by
    intro i bound
    rcases inv.buckets i bound with ⟨central, bucket⟩
    rw [Pool.offsets_cons_of_ne (by omega)] at bucket
    exact ⟨central, bucket⟩
  attached := inv.attached
  buffer := inv.buffer

/-- An outside address that a bucket contains is the address of a block. -/
theorem block_of_mem (inv : PoolInv pool a m out) {p : Nat} (member : p ∈ out)
    (bound : i < pool.bucketsCount) (found : pool.findBucket p = i) (addressable : p < 2 ^ 64) :
    ∃ o, pool.IsBlock i o ∧ p = pool.pData i + o := by
  rcases inv.buckets i bound with ⟨central, bucket⟩
  have listed : p - pool.pData i ∈ pool.offsets out i :=
    Pool.mem_offsets.mpr ⟨p, member, found, rfl⟩
  have inside := Pool.inside_of_findBucket addressable bound found
  exact ⟨p - pool.pData i, bucket.isBlock_client listed, by omega⟩

/-- Bytes of blocks that are outside may change at will. -/
theorem write_out (inv : PoolInv pool a m out) {mem : Memory}
    (changed : forall x, mem x ≠ m.mem x ->
      (x < pool.base ∨ pool.base + pool.bucketsCount * pool.bucketSizeInBytes ≤ x) ∨
      ∃ i o, i < pool.bucketsCount ∧ o ∈ pool.offsets out i ∧ pool.pData i + o ≤ x ∧
        x < pool.pData i + o + pool.elementSize i) :
    PoolInv pool a { m with mem := mem } out where
  represents := inv.represents
  buckets := by
    intro i bound
    rcases inv.buckets i bound with ⟨central, bucket⟩
    refine ⟨central, ?_, ?_⟩
    · apply bucket.linked.congr
      intro o member
      have block := bucket.isBlock_central member
      have fits := block.end_le bound
      have positive := Pool.element_pos bound
      apply TaggedIndex.load_congr
      intro k small
      by_contra different
      have base := pool.base_le_pData i
      have top := Pool.bucket_end_le bound
      rcases changed _ different with outside | ⟨j, o', bound', listed, low, high⟩
      · omega
      · rcases inv.buckets j bound' with ⟨central', bucket'⟩
        rcases block.byte_unique bound (Nat.le_add_right _ k) (by omega)
          (bucket'.isBlock_client listed) bound' low high with ⟨rfl, rfl⟩
        exact bucket.central_client member listed
    · exact bucket.custody
  attached := inv.attached
  buffer := inv.buffer

end PoolInv

end SmMalloc
