import SmMalloc.Pool.Init

namespace SmMalloc

open Foundation

/-!
# A well-formed configuration starts sound

When every size class fits into a bucket, `Init` leaves a sound machine behind:
all blocks are on the central lists, nobody has cached anything, and nothing
is outside.
-/

variable {scheme : Partitioning} {w w' : World} {a : Nat}
variable {_bucketsCount _bucketSizeInBytes : Nat}

/-- The configurations that the allocator is meant for. -/
structure WellFormed (scheme : Partitioning) (_bucketsCount _bucketSizeInBytes : Nat) : Prop where
  arguments : InitArguments _bucketsCount _bucketSizeInBytes
  fits : forall i, i < min _bucketsCount maxBucketCount ->
    scheme.getBucketSizeInBytesByIndex i ≤ align _bucketSizeInBytes kMaxValidAlignment

/-- The pool that `Init` builds in the buffer at `base`. -/
def WellFormed.pool (wellFormed : WellFormed scheme _bucketsCount _bucketSizeInBytes)
    (sized : scheme.Sized) {base : Nat} (aligned : kMaxValidAlignment ∣ base)
    (readable : kMaxValidAlignment < base)
    (inside : base + bufferBytes _bucketsCount _bucketSizeInBytes ≤ 2 ^ 64) : Pool scheme where
  bucketsCount := min _bucketsCount maxBucketCount
  bucketSizeInBytes := align _bucketSizeInBytes kMaxValidAlignment
  base := base
  sized := sized
  count_pos := Nat.lt_min.mpr ⟨wellFormed.arguments.count_pos, by decide⟩
  count_le := Nat.min_le_right _ _
  size_le := wellFormed.arguments.aligned.2.1
  size_aligned := wellFormed.arguments.aligned.2.2
  element_le := wellFormed.fits
  base_aligned := aligned
  base_readable := readable
  end_le := inside

variable {pool : Pool scheme}

/-- The pool and the allocator object describe the same layout. -/
structure Pool.LaidOut (pool : Pool scheme) (_bucketsCount _bucketSizeInBytes base : Nat) :
    Prop where
  bucketsCount : pool.bucketsCount = min _bucketsCount maxBucketCount
  bucketSizeInBytes : pool.bucketSizeInBytes = align _bucketSizeInBytes kMaxValidAlignment
  base : pool.base = base

/-- The offsets of all blocks of a bucket. -/
def Pool.allOffsets (pool : Pool scheme) (i : Nat) : List Nat :=
  (List.range (pool.capacity i)).map (fun k => k * pool.elementSize i)

theorem Pool.mem_allOffsets {i o : Nat} : o ∈ pool.allOffsets i <-> pool.IsBlock i o := by
  simp only [allOffsets, List.mem_map, List.mem_range, IsBlock]
  exact exists_congr (fun k => and_congr_right (fun _ => eq_comm))

theorem Pool.allOffsets_nodup {i : Nat} (bound : i < pool.bucketsCount) :
    (pool.allOffsets i).Nodup := by
  have positive := Pool.element_pos bound
  apply List.Nodup.map _ List.nodup_range
  intro k k' same
  exact Nat.eq_of_mul_eq_mul_right (by omega) same

theorem Pool.capacity_pos {i : Nat} (bound : i < pool.bucketsCount) : 0 < pool.capacity i := by
  have positive := Pool.element_pos bound
  exact Nat.div_pos (pool.element_le i bound) (by omega)

theorem LaidBucket.bucketInv {m : Machine} {i : Nat} (laid : LaidBucket scheme m a i)
    (bound : i < pool.bucketsCount) (pData : (m.bucket a i).pData = pool.pData i)
    (size : (m.allocs a).bucketSizeInBytes = pool.bucketSizeInBytes)
    (uncached : forall t, m.cached a i t = []) :
    BucketInv pool m a i (pool.allOffsets i) [] where
  linked := by
    have capacity := Pool.capacity_pos bound
    have difference : (m.bucket a i).pBufferEnd - (m.bucket a i).pData =
        pool.bucketSizeInBytes := by
      rw [laid.bufferEnd, size]
      omega
    have count : createdCount (pool.elementSize i) pool.bucketSizeInBytes = pool.capacity i := by
      unfold createdCount
      exact Nat.max_eq_right capacity
    have links := laid.created.links
    rw [difference, pData] at links
    rw [laid.created.head]
    have linked := created_linked pool.bucketSizeInBytes links (by
      intro k inside
      have block : pool.IsBlock i (k * pool.elementSize i) := ⟨k, count ▸ inside, rfl⟩
      have small := block.lt bound
      change k * pool.elementSize i + 1 < 2 ^ 32
      omega)
    change TaggedIndex.kind.Linked _ _ ((List.range (createdCount (pool.elementSize i)
      pool.bucketSizeInBytes)).map (fun k => k * pool.elementSize i)) at linked
    rw [count] at linked
    exact linked
  custody := by
    apply Custody.of_single Holder.central (Pool.allOffsets_nodup bound)
    · intro other notCentral
      cases other with
      | central => exact absurd rfl notCentral
      | cache t => exact uncached t
      | client => rfl
    · exact fun o => Pool.mem_allOffsets

theorem live_nodup {heap : GenericAllocator} (apart : heap.live.Pairwise Region.Apart) :
    (heap.live.map Region.base).Nodup := Region.bases_nodup apart

/-- A world in which allocator `a` has been constructed and no thread has a cache. -/
structure Fresh (a : Nat) (w : World) : Prop where
  constructed : w.allocs a = Allocator.constructed
  tls : forall t i, (w.tls t i).Idle
  apart : w.heap.live.Pairwise Region.Apart

/-- `Init` of a well-formed configuration leaves a pool without any block
outside, whatever the thread caches are used for. -/
theorem WellFormed.poolInv (wellFormed : WellFormed scheme _bucketsCount _bucketSizeInBytes)
    (sized : scheme.Sized) (constructed : w.allocs a = Allocator.constructed)
    (unused : forall t i j, (w.tls t i).pBucket ≠ some (a, j))
    (served : w.heap.answer (bufferBytes _bucketsCount _bucketSizeInBytes) kMaxValidAlignment ≠ 0) :
    ∃ pool : Pool scheme, pool.LaidOut _bucketsCount _bucketSizeInBytes
        (w.heap.answer (bufferBytes _bucketsCount _bucketSizeInBytes) kMaxValidAlignment) ∧
      PoolInv pool a (Allocator.init scheme w a _bucketsCount _bucketSizeInBytes).toMachine [] := by
  have empty : (w.allocs a).bucketsCount = 0 := by rw [constructed]; rfl
  have init := init_spec (a := a) (w := w) scheme wellFormed.arguments empty
  have serves := GenericAllocator.serves_of_answer served
  obtain ⟨pool, isPool⟩ : ∃ pool, pool = wellFormed.pool sized serves.2.2.1 serves.1 serves.2.1 :=
    ⟨_, rfl⟩
  have layout : pool.LaidOut _bucketsCount _bucketSizeInBytes
      (w.heap.answer (bufferBytes _bucketsCount _bucketSizeInBytes) kMaxValidAlignment) := by
    rw [isPool]
    exact ⟨rfl, rfl, rfl⟩
  obtain ⟨after, isAfter⟩ : ∃ after, after =
    Allocator.init scheme w a _bucketsCount _bucketSizeInBytes := ⟨_, rfl⟩
  rw [← isAfter] at init ⊢
  have bytes : pool.bucketsCount * pool.bucketSizeInBytes =
      bufferBytes _bucketsCount _bucketSizeInBytes := by
    rw [layout.bucketsCount, layout.bucketSizeInBytes, bufferBytes]
  have data : (after.allocs a).pBuffer = pool.base := init.pBuffer.trans layout.base.symm
  have size : (after.allocs a).bucketSizeInBytes = pool.bucketSizeInBytes :=
    init.bucketSizeInBytes.trans layout.bucketSizeInBytes.symm
  have laid : forall i, i < pool.bucketsCount -> LaidBucket scheme after.toMachine a i := by
    rw [layout.bucketsCount]
    exact init.buckets
  have pData : forall i, i < pool.bucketsCount -> (after.bucket a i).pData = pool.pData i := by
    intro i bound
    rw [(laid i bound).pData, data, size, Pool.pData]
  refine ⟨pool, layout, ⟨?_, size, data, ?_, ?_, pData, ?_⟩, ?_, ?_, ?_⟩
  · exact init.bucketsCount.trans layout.bucketsCount.symm
  · rw [init.pBufferEnd, data, bytes]
  · rw [(laid 0 pool.count_pos).begins]
    exact (pData 0 pool.count_pos).trans (by simp [Pool.pData])
  · intro i bound
    rw [← pData i bound, ← size]
    exact (laid i bound).bufferEnd
  · intro i bound
    refine ⟨pool.allOffsets i, (laid i bound).bucketInv bound (pData i bound) size ?_⟩
    intro t
    rw [Machine.cached, init.tls, if_neg (unused t i i)]
  · intro t i j owned
    rw [init.tls] at owned
    exact absurd owned (unused t i j)
  · rw [init.heap, GenericAllocator.alloc_live served, bytes, layout.base]
    exact List.mem_cons_self

/-- `Init` of a well-formed configuration on a fresh world leaves a sound machine. -/
theorem WellFormed.sound (wellFormed : WellFormed scheme _bucketsCount _bucketSizeInBytes)
    (sized : scheme.Sized) (fresh : Fresh a w)
    (served : w.heap.answer (bufferBytes _bucketsCount _bucketSizeInBytes) kMaxValidAlignment ≠ 0) :
    ∃ pool : Pool scheme, pool.LaidOut _bucketsCount _bucketSizeInBytes
        (w.heap.answer (bufferBytes _bucketsCount _bucketSizeInBytes) kMaxValidAlignment) ∧
      Sound pool a (w.heap.live.map Region.base)
        (Allocator.init scheme w a _bucketsCount _bucketSizeInBytes).toMachine [] := by
  have unused : forall t i j, (w.tls t i).pBucket ≠ some (a, j) := by
    intro t i j owned
    rw [(fresh.tls t i).pBucket] at owned
    cases owned
  rcases wellFormed.poolInv sized fresh.constructed unused served with ⟨pool, layout, inv⟩
  have empty : (w.allocs a).bucketsCount = 0 := by rw [fresh.constructed]; rfl
  have init := init_spec (a := a) (w := w) scheme wellFormed.arguments empty
  have serves := GenericAllocator.serves_of_answer served
  obtain ⟨after, isAfter⟩ : ∃ after, after =
    Allocator.init scheme w a _bucketsCount _bucketSizeInBytes := ⟨_, rfl⟩
  rw [← isAfter] at init inv ⊢
  have idle : forall t i, (after.tls t i).Idle := by
    rw [init.tls]
    exact fresh.tls
  refine ⟨pool, layout, inv, fun t i => Or.inl (idle t i), ⟨?_, ?_, ?_⟩,
    fun p member => absurd member List.not_mem_nil⟩
  · rw [init.heap, GenericAllocator.alloc_live served]
    exact List.pairwise_cons.mpr ⟨serves.2.2.2.2, fresh.apart⟩
  · have before : Custody (fun holder : HeapHolder =>
        if holder = .rest then w.heap.live.map Region.base else []) w.heap.Live := by
      apply Custody.of_single HeapHolder.rest
      · exact live_nodup fresh.apart
      · intro other notRest
        exact if_neg notRest
      · exact fun item => Iff.rfl
    rw [init.heap]
    apply before.acquire HeapHolder.pool (GenericAllocator.answer_fresh served)
    · rw [← layout.base]
      exact List.Perm.refl _
    · intro other notPool
      cases other with
      | pool => exact absurd rfl notPool
      | stack t i =>
          change stackOf (after.tls t i) = _
          rw [stackOf, if_pos (idle t i).pStorageL1]
          rfl
      | client => rfl
      | rest => rfl
    · exact GenericAllocator.live_alloc served
  · exact fun t i stored => absurd (idle t i).pStorageL1 stored

end SmMalloc
