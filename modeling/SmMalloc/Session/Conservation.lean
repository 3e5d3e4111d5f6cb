import SmMalloc.Session.Run

namespace SmMalloc

open Foundation

/-!
# Every block is in exactly one place

The cache of a thread has two levels, and an observer can tell them apart.  So
the places of a block are the central list, a level of one thread, and the
clients; in every session the blocks of a bucket are divided exactly among
these, whatever the threads have done.
-/

variable {scheme : Partitioning} {pool : Pool scheme} {a i : Nat} {rest : List Nat} {s : Session}
variable {_bucketsCount _bucketSizeInBytes : Nat}

/-- Where a block of a bucket can be. -/
inductive Place
  | central
  | levelL0 (t : Nat)
  | levelL1 (t : Nat)
  | client
  deriving DecidableEq

/-- The offsets of the held addresses that lie in bucket `i`. -/
def Session.clientOffsets (s : Session) (a i : Nat) : List Nat :=
  s.held.filterMap (fun p =>
    if (s.world.allocs a).findBucket p = i then some (p - (s.world.bucket a i).pData) else none)

/-- The offsets that are kept at each place, when the central list is `central`. -/
def Session.keeps (s : Session) (a i : Nat) (central : List Nat) : Place -> List Nat
  | .central => central
  | .levelL0 t => (s.world.tls t i).offsetsL0
  | .levelL1 t => (s.world.tls t i).offsetsL1
  | .client => s.clientOffsets a i

/-- The blocks of bucket `i`, at the multiples of its element size, are divided
exactly.  The central list is what the links in memory say. -/
structure Division (scheme : Partitioning) (s : Session) (a i : Nat) (central : List Nat) :
    Prop where
  linked : TaggedIndex.kind.Linked (linksAt s.world.mem (s.world.bucket a i).pData)
    (s.world.bucket a i).head central
  blocks : forall place o, o ∈ s.keeps a i central place ->
    ∃ k, k < Allocator.getBucketElementsCount scheme (s.world.allocs a) i ∧
      o = k * scheme.getBucketSizeInBytesByIndex i
  unique : forall k, k < Allocator.getBucketElementsCount scheme (s.world.allocs a) i ->
    ∃! place : Place × Nat, (s.keeps a i central place.1)[place.2]? =
      some (k * scheme.getBucketSizeInBytesByIndex i)

theorem Session.Sound.clientOffsets (sound : s.Sound pool a rest) (bound : i < pool.bucketsCount) :
    s.clientOffsets a i = pool.offsets s.held i := by
  have represents := SmMalloc.Sound.inv sound |>.represents
  have pData : (s.world.bucket a i).pData = pool.pData i := represents.pData i bound
  simp only [Session.clientOffsets, Pool.offsets, represents.findBucket, pData]

/-- The cache bucket of a thread keeps nothing unless it is attached. -/
theorem Session.Sound.cached (sound : s.Sound pool a rest) (t i : Nat) :
    s.world.cached a i t = (s.world.tls t i).offsets := by
  rcases SmMalloc.Sound.slots sound t i with idle | serving
  · rw [Machine.cached, offsets_of_empty idle.numElementsL0 idle.numElementsL1]
    split <;> rfl
  · exact if_pos serving.pBucket

theorem Pool.Represents.getBucketElementsCount {alloc : Allocator}
    (represents : pool.Represents alloc) (bound : i < pool.bucketsCount) :
    Allocator.getBucketElementsCount scheme alloc i = pool.capacity i := by
  have inside : ¬ alloc.bucketsCount ≤ i := by rw [represents.bucketsCount]; omega
  have small := pool.size_le
  have capacity : pool.capacity i ≤ pool.bucketSizeInBytes / 16 :=
    Nat.div_le_div_left (Pool.element_pos bound) (by decide)
  rw [Allocator.getBucketElementsCount, if_neg inside, represents.bucketSizeInBytes]
  exact Nat.mod_eq_of_lt (by change pool.capacity i < _; omega)

/-- The places of a block, by who keeps it. -/
def Place.holder : Place -> Holder
  | .central => .central
  | .levelL0 t => .cache t
  | .levelL1 t => .cache t
  | .client => .client

/-- The two levels of a cache divide what the thread has cached. -/
theorem Session.Sound.custody_places (sound : s.Sound pool a rest) {central : List Nat}
    (bound : i < pool.bucketsCount)
    (bucket : BucketInv pool s.world.toMachine a i central (pool.offsets s.held i)) :
    Custody (s.keeps a i central) (pool.IsBlock i) := by
  have client := sound.clientOffsets bound
  have levels : forall t, (s.world.tls t i).offsets.Nodup ∧
      forall o, o ∈ (s.world.tls t i).offsets -> o ∈ s.world.cached a i t := by
    intro t
    rw [← sound.cached t i]
    exact ⟨bucket.custody.nodup (Holder.cache t), fun o member => member⟩
  apply bucket.custody.refine Place.holder
  · intro place
    cases place with
    | central => exact bucket.custody.nodup Holder.central
    | levelL0 t => exact (List.nodup_append'.mp (levels t).1).1
    | levelL1 t => exact (List.nodup_append'.mp (levels t).1).2.1
    | client =>
        change (s.clientOffsets a i).Nodup
        rw [client]
        exact bucket.custody.nodup Holder.client
  · intro place o member
    cases place with
    | central => exact member
    | levelL0 t => exact (levels t).2 o (List.mem_append_left _ member)
    | levelL1 t => exact (levels t).2 o (List.mem_append_right _ member)
    | client =>
        change o ∈ s.clientOffsets a i at member
        rw [client] at member
        exact member
  · intro first second different same
    cases first <;> cases second <;> simp only [Place.holder, Holder.cache.injEq, reduceCtorEq]
      at same
    case central.central => exact absurd rfl different
    case client.client => exact absurd rfl different
    case levelL0.levelL0 t u => exact absurd (congrArg Place.levelL0 same) different
    case levelL1.levelL1 t u => exact absurd (congrArg Place.levelL1 same) different
    case levelL0.levelL1 t u =>
      subst same
      exact (List.nodup_append'.mp (levels t).1).2.2
    case levelL1.levelL0 t u =>
      subst same
      exact fun o inLevel1 inLevel0 =>
        (List.nodup_append'.mp (levels t).1).2.2 inLevel0 inLevel1
  · intro holder o member
    cases holder with
    | central => exact ⟨Place.central, member⟩
    | cache t =>
        change o ∈ s.world.cached a i t at member
        rw [sound.cached t i] at member
        rcases List.mem_append.mp member with level0 | level1
        · exact ⟨Place.levelL0 t, level0⟩
        · exact ⟨Place.levelL1 t, level1⟩
    | client =>
        refine ⟨Place.client, ?_⟩
        change o ∈ s.clientOffsets a i
        rw [client]
        exact member

/-- Every block of a bucket is at exactly one position of exactly one place. -/
theorem Session.Sound.division (sound : s.Sound pool a rest) {central : List Nat}
    (bound : i < pool.bucketsCount)
    (bucket : BucketInv pool s.world.toMachine a i central (pool.offsets s.held i)) :
    Division scheme s a i central := by
  have represents := (SmMalloc.Sound.inv sound).represents
  have pData : (s.world.bucket a i).pData = pool.pData i := represents.pData i bound
  have count := represents.getBucketElementsCount bound
  have custody := sound.custody_places bound bucket
  refine ⟨?_, ?_, ?_⟩
  · rw [pData]
    exact bucket.linked
  · intro place o member
    rw [count]
    exact custody.supplied place member
  · intro k inside
    rw [count] at inside
    exact custody.existsUnique_position ⟨k, inside, rfl⟩

/-- In every session, every block of every bucket is at exactly one position
of exactly one place. -/
theorem Session.conservation
    (wellFormed : WellFormed .piecewise _bucketsCount _bucketSizeInBytes)
    (reachable : (Session.system .piecewise a _bucketsCount _bucketSizeInBytes).Reachable s)
    (bound : i < (s.world.allocs a).bucketsCount) :
    ∃ central, Division .piecewise s a i central := by
  rcases Session.reachable_sound wellFormed Partitioning.piecewise_sized reachable with
    ⟨pool, rest, -, sound⟩
  have inv := SmMalloc.Sound.inv sound
  have bound' : i < pool.bucketsCount := inv.represents.bucketsCount ▸ bound
  rcases inv.buckets i bound' with ⟨central, bucket⟩
  exact ⟨central, sound.division bound' bucket⟩

theorem Session.conservation_onePage :
    ∃ central, Division .piecewise Session.onePageUsed 0 0 central :=
  Session.conservation (onePage_wellFormed (by decide)) Session.onePageUsed_reachable (by decide)

end SmMalloc
