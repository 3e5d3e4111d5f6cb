import SmMalloc.Pool.Sound

namespace SmMalloc

open Foundation

/-!
# The bytes that belong to a block

`GetUsableSize` tells how many bytes behind an address belong to the client.
`Extent` says where these bytes lie: in a block of a bucket, or in a live
block of the fallback heap.  The extents of two addresses that are outside
never overlap, and no byte of them is free.  So whatever an operation writes to
free bytes, or to the bytes of a block that it has just handed out, leaves the
contents of all other blocks alone.
-/

variable {scheme : Partitioning} {pool : Pool scheme} {m m' : Machine} {w w' : World}
variable {a i o p q x : Nat} {rest out out' : List Nat}

/-- The address `p` is outside, with `size` bytes of its own. -/
inductive Extent (pool : Pool scheme) (m : Machine) (out : List Nat) (p : Nat) : Nat -> Prop
  | block (i o : Nat) (bound : i < pool.bucketsCount) (block : pool.IsBlock i o)
      (address : p = pool.pData i + o) (listed : o ∈ pool.offsets out i) :
      Extent pool m out p (pool.elementSize i)
  | heap (size : Nat) (elsewhere : pool.bucketsCount ≤ pool.findBucket p)
      (live : ⟨p, size⟩ ∈ m.heap.live)
      (apart : Region.Apart ⟨p, size⟩
        ⟨pool.base, pool.bucketsCount * pool.bucketSizeInBytes⟩) :
      Extent pool m out p size

/-- `GetUsableSize`, for an address that does not stand for an empty block. -/
theorem Pool.Represents.getUsableSize (represents : pool.Represents (w.allocs a))
    (above : kMaxValidAlignment < p) :
    Allocator.getUsableSize scheme w a p =
      if pool.findBucket p < pool.bucketsCount then pool.elementSize (pool.findBucket p)
      else w.heap.getUsableSpace p := by
  simp only [Allocator.getUsableSize, if_neg (not_unreadable above), represents.findBucket,
    represents.bucketsCount, Pool.elementSize]

theorem Pool.Represents.getUsableSize_block (represents : pool.Represents (w.allocs a))
    (bound : i < pool.bucketsCount) (block : pool.IsBlock i o) :
    Allocator.getUsableSize scheme w a (pool.pData i + o) = pool.elementSize i := by
  have above := pool.block_readable i o
  rw [represents.getUsableSize above, Pool.findBucket_block bound block, if_pos bound]

theorem Pool.Represents.getUsableSize_elsewhere (represents : pool.Represents (w.allocs a))
    (above : kMaxValidAlignment < p) (elsewhere : pool.bucketsCount ≤ pool.findBucket p) :
    Allocator.getUsableSize scheme w a p = w.heap.getUsableSpace p := by
  rw [represents.getUsableSize above, if_neg (Nat.not_lt_of_le elsewhere)]

/-- The offsets that are listed are those of the addresses that are outside. -/
theorem PoolInv.listed_iff (inv : PoolInv pool a m out)
    (addresses : forall p, p ∈ out -> kMaxValidAlignment < p ∧ p < 2 ^ 64)
    (bound : i < pool.bucketsCount) (block : pool.IsBlock i o) :
    o ∈ pool.offsets out i <-> pool.pData i + o ∈ out := by
  rw [Pool.mem_offsets]
  constructor
  · rintro ⟨p, member, found, distance⟩
    rcases inv.block_of_mem member bound found (addresses p member).2 with
      ⟨o', -, rfl⟩
    have same : o' = o := by omega
    rw [← same]
    exact member
  · intro member
    exact ⟨_, member, Pool.findBucket_block bound block, by omega⟩

/-- While live blocks of the fallback heap are apart, so are the bytes of two addresses. -/
theorem Extent.apart (disjoint : m.heap.live.Pairwise Region.Apart) {n k : Nat}
    (first : Extent pool m out p n) (second : Extent pool m out q k) (different : p ≠ q) :
    p + n ≤ q ∨ q + k ≤ p := by
  have inBuffer : forall i o, i < pool.bucketsCount -> pool.IsBlock i o ->
      pool.base ≤ pool.pData i + o ∧ pool.pData i + o + pool.elementSize i ≤
        pool.base + pool.bucketsCount * pool.bucketSizeInBytes := by
    intro i o bound block
    have fits := block.end_le bound
    have low := pool.base_le_pData i
    have high := Pool.bucket_end_le bound
    omega
  have bytes : forall r s : Region, r.Apart s -> r.base + r.size ≤ s.base ∨
      s.base + s.size ≤ r.base := by
    intro r s apart
    unfold Region.Apart at apart
    omega
  cases first with
  | block i o bound block address listed =>
      cases second with
      | block j o' bound' block' address' listed' =>
          have positive := Pool.element_pos bound
          have positive' := Pool.element_pos bound'
          by_contra overlap
          obtain ⟨x, low, high, low', high'⟩ : ∃ x, p ≤ x ∧ x < p + pool.elementSize i ∧
              q ≤ x ∧ x < q + pool.elementSize j := ⟨max p q, by omega, by omega, by omega, by omega⟩
          rcases block.byte_unique bound (x := x) (by omega) (by omega) block' bound' (by omega)
            (by omega) with ⟨rfl, rfl⟩
          exact different (address.trans address'.symm)
      | heap _ elsewhere live apart =>
          have inside := inBuffer i o bound block
          have byte := bytes _ _ apart
          simp only at byte
          omega
  | heap _ elsewhere live apart =>
      cases second with
      | block j o' bound' block' address' listed' =>
          have inside := inBuffer j o' bound' block'
          have byte := bytes _ _ apart
          simp only at byte
          omega
      | heap _ elsewhere' live' apart' =>
          have : Std.Symm Region.Apart := ⟨fun _ _ apart => apart.symm⟩
          have both : Region.Apart ⟨p, n⟩ ⟨q, k⟩ := by
            apply disjoint.forall live live'
            rintro equal
            exact different (congrArg Region.base equal)
          exact bytes _ _ both

namespace Sound

theorem listed_iff (sound : Sound pool a rest m out) (bound : i < pool.bucketsCount)
    (block : pool.IsBlock i o) : o ∈ pool.offsets out i <-> pool.pData i + o ∈ out :=
  sound.inv.listed_iff sound.addresses bound block

/-- The usable bytes of an address that is outside. -/
theorem extent (sound : Sound pool a rest w.toMachine out) (member : p ∈ out) :
    Extent pool w.toMachine out p (Allocator.getUsableSize scheme w a p) := by
  have address := sound.addresses p member
  have first : Sound pool a rest w.toMachine (p :: out.erase p) :=
    sound.perm (List.perm_cons_erase member).symm
  rcases first.inv.outside_cases address.2 with elsewhere | ⟨i, o, bound, block, rfl⟩
  · rcases first.region elsewhere with ⟨size, usable, live, apart⟩
    rw [sound.inv.represents.getUsableSize_elsewhere address.1 elsewhere, usable]
    exact Extent.heap size elsewhere live apart
  · rw [sound.inv.represents.getUsableSize_block bound block]
    refine Extent.block i o bound block rfl ?_
    exact Pool.mem_offsets.mpr ⟨_, member, Pool.findBucket_block bound block, by omega⟩

/-- The bytes of two addresses that are outside do not overlap. -/
theorem extents_apart (sound : Sound pool a rest m out) {n k : Nat}
    (first : Extent pool m out p n) (second : Extent pool m out q k) (different : p ≠ q) :
    p + n ≤ q ∨ q + k ≤ p := first.apart sound.ledger.apart second different

end Sound

/-- The bytes of a block that is outside are not free. -/
theorem Extent.not_free {size : Nat} (extent : Extent pool m out p size) (low : p ≤ x)
    (high : x < p + size) : ¬ pool.FreeByte out x := by
  cases extent with
  | block i o bound block address listed =>
      exact block.not_free bound listed (by omega) (by omega)
  | heap _ elsewhere live apart =>
      intro free
      have inside := free.inside
      unfold Region.Apart at apart
      simp only at apart
      omega

/-- Whatever changes only free bytes keeps the bytes of what is outside. -/
theorem Extent.kept {size t : Nat} (extent : Extent pool m out p size)
    (confined : Confined pool a t out m m') (low : p ≤ x) (high : x < p + size) :
    m'.mem x = m.mem x := by
  by_contra changed
  exact extent.not_free low high (confined.mem x changed)

/-! ## Extents from one state to the next -/

variable {r n k t bytesCount alignment : Nat}

namespace Extent

/-- An address keeps its bytes while it is outside and, if it is on the fallback
heap, its block there is live. -/
theorem transfer (extent : Extent pool m out p n) (member : p ∈ out')
    (live : pool.bucketsCount ≤ pool.findBucket p -> ⟨p, n⟩ ∈ m.heap.live ->
      ⟨p, n⟩ ∈ m'.heap.live) : Extent pool m' out' p n := by
  cases extent with
  | block i o bound block address listed =>
      refine Extent.block i o bound block address ?_
      subst address
      exact Pool.mem_offsets.mpr ⟨_, member, Pool.findBucket_block bound block, by omega⟩
  | heap _ elsewhere stillLive apart =>
      exact Extent.heap n elsewhere (live elsewhere stillLive) apart

/-- An address has one extent only. -/
theorem size_eq (disjoint : m.heap.live.Pairwise Region.Apart) (first : Extent pool m out p n)
    (second : Extent pool m out p k) : n = k := by
  cases first with
  | block i o bound block address listed =>
      have found := Pool.findBucket_block bound block
      rw [← address] at found
      cases second with
      | block j o' bound' block' address' listed' =>
          have found' := Pool.findBucket_block bound' block'
          rw [← address', found] at found'
          rw [found']
      | heap _ elsewhere live apart => omega
  | heap _ elsewhere live apart =>
      cases second with
      | block j o' bound' block' address' listed' =>
          have found' := Pool.findBucket_block bound' block'
          rw [← address'] at found'
          omega
      | heap _ elsewhere' live' apart' =>
          have same := GenericAllocator.eq_of_base disjoint live live' rfl
          exact congrArg Region.size same

theorem unique (sound : Sound pool a rest m out) (first : Extent pool m out p n)
    (second : Extent pool m out p k) : n = k := first.size_eq sound.ledger.apart second

end Extent

/-- An allocation leaves the blocks of the fallback heap live. -/
theorem Allocated.live (allocated : Allocated pool a t bytesCount alignment out m r m')
    {region : Region} (member : region ∈ m.heap.live) : region ∈ m'.heap.live := by
  cases allocated with
  | block j o bound suitable exhausted taken =>
      rw [taken.heap]
      exact member
  | generic => exact GenericAllocator.mem_alloc member

/-- What an allocation returns has the bytes that were asked for. -/
theorem Sound.allocated_extent (sound : Sound pool a rest m out) (positive : 0 < bytesCount)
    (bytesBound : bytesCount < 2 ^ 64) (valid : ValidAlignment alignment)
    (allocated : Allocated pool a t bytesCount alignment out m r m') (served : r ≠ 0) :
    ∃ size, bytesCount ≤ size ∧ Extent pool m' (r :: out) r size := by
  cases allocated with
  | block j o bound suitable exhausted taken =>
      have fits := suitable.fits pool.sized positive bytesBound valid
        (Nat.lt_of_lt_of_le bound pool.count_le)
      refine ⟨pool.elementSize j, fits.1, Extent.block j o bound taken.block rfl ?_⟩
      rw [Pool.offsets_cons_block bound taken.block]
      exact List.mem_cons_self
  | generic =>
      have answered := GenericAllocator.serves_of_answer served
      refine ⟨bytesCount, Nat.le_refl _, Extent.heap bytesCount
        (sound.inv.answer_elsewhere positive) ?_ (answered.2.2.2.2 _ sound.inv.buffer)⟩
      rw [GenericAllocator.alloc_live served]
      exact List.mem_cons_self

/-! ## What a reallocation does with the bytes -/

/-- A reallocation that fails writes nothing. -/
theorem Reallocated.null_mem
    (reallocated : Reallocated pool a t p bytesCount alignment out m r m') (null : r = 0) :
    m'.mem = m.mem := by
  cases reallocated with
  | inPlace => rfl
  | refused allocated => exact allocated.confined.2
  | lost _ allocated => exact allocated.confined.2
  | fromPool _ _ _ _ _ _ _ served => exact absurd null served
  | fromHeap _ _ served => exact absurd null served

namespace Sound

/-- The result has the bytes that were asked for. -/
theorem reallocated_extent (sound : Sound pool a rest m (p :: out)) (positive : 0 < bytesCount)
    (bytesBound : bytesCount < 2 ^ 64) (valid : ValidAlignment alignment)
    (reallocated : Reallocated pool a t p bytesCount alignment out m r m') (served : r ≠ 0) :
    ∃ size, bytesCount ≤ size ∧ Extent pool m' (r :: out) r size := by
  cases reallocated with
  | inPlace i o bound block address fits =>
      refine ⟨pool.elementSize i, fits, Extent.block i o bound block address ?_⟩
      rw [address, Pool.offsets_cons_block bound block]
      exact List.mem_cons_self
  | refused => exact absurd rfl served
  | lost => exact absurd rfl served
  | fromPool i o bound block address short allocated _ released =>
      rcases sound.allocated_extent positive bytesBound valid allocated served with
        ⟨size, large, extent⟩
      refine ⟨size, large, extent.transfer List.mem_cons_self (fun _ live => ?_)⟩
      rw [released.heap]
      exact live
  | fromHeap elsewhere allocated _ =>
      rcases sound.allocated_extent positive bytesBound valid allocated served with
        ⟨size, large, extent⟩
      have fresh := (sound.allocated positive allocated served).fresh
      have different : r ≠ p := fun same => fresh (same ▸ List.mem_cons_self)
      refine ⟨size, large, extent.transfer List.mem_cons_self (fun _ live => ?_)⟩
      exact GenericAllocator.mem_free live different

/-- All other addresses keep their extents. -/
theorem reallocated_others (sound : Sound pool a rest m (p :: out))
    (reallocated : Reallocated pool a t p bytesCount alignment out m r m') (member : q ∈ out)
    (extent : Extent pool m (p :: out) q n) : Extent pool m' (r :: out) q n := by
  have different : q ≠ p := fun same => sound.fresh (same ▸ member)
  refine extent.transfer (List.mem_cons_of_mem _ member) (fun _ live => ?_)
  cases reallocated with
  | inPlace => exact live
  | refused allocated => exact allocated.live live
  | lost _ allocated => exact GenericAllocator.mem_free (allocated.live live) different
  | fromPool i o bound block address short allocated _ released =>
      rw [released.heap]
      exact allocated.live live
  | fromHeap elsewhere allocated _ =>
      exact GenericAllocator.mem_free (allocated.live live) different

/-- All other addresses keep their contents. -/
theorem reallocated_kept (sound : Sound pool a rest m (p :: out)) (positive : 0 < bytesCount)
    (bytesBound : bytesCount < 2 ^ 64) (valid : ValidAlignment alignment)
    (reallocated : Reallocated pool a t p bytesCount alignment out m r m') (member : q ∈ out)
    (extent : Extent pool m (p :: out) q n) (low : q ≤ x) (high : x < q + n) :
    m'.mem x = m.mem x := by
  by_contra changed
  have after := sound.reallocated_others reallocated member extent
  rcases sound.reallocated_mem positive reallocated changed with free | ⟨moved, above, below⟩
  · exact after.not_free low high free
  have served : r ≠ 0 := fun null => changed (congrFun (reallocated.null_mem null) x)
  have final := sound.reallocated positive bytesBound valid reallocated served
  rcases sound.reallocated_extent positive bytesBound valid reallocated served with
    ⟨size, large, result⟩
  have different : q ≠ r := fun same => final.fresh (same ▸ member)
  have apart := final.extents_apart after result different
  omega

/-- Only a block that stays where it is is its own result. -/
theorem reallocated_inPlace (sound : Sound pool a rest m (p :: out)) (positive : 0 < bytesCount)
    (reallocated : Reallocated pool a t p bytesCount alignment out m r m') (served : r ≠ 0)
    (same : r = p) : m' = m := by
  cases reallocated with
  | inPlace => rfl
  | refused => exact absurd rfl served
  | lost => exact absurd rfl served
  | fromPool _ _ _ _ _ _ allocated _ _ =>
      exact absurd (same ▸ List.mem_cons_self) (sound.allocated positive allocated served).fresh
  | fromHeap _ allocated _ =>
      exact absurd (same ▸ List.mem_cons_self) (sound.allocated positive allocated served).fresh

/-- The contents move with the block. -/
theorem reallocated_contents (sound : Sound pool a rest m (p :: out)) (positive : 0 < bytesCount)
    (bytesBound : bytesCount < 2 ^ 64) (valid : ValidAlignment alignment)
    (reallocated : Reallocated pool a t p bytesCount alignment out m r m') (served : r ≠ 0)
    (extent : Extent pool m (p :: out) p n) (inside : k < min n bytesCount) :
    m'.mem (r + k) = m.mem (p + k) := by
  have insideBlock : k < n := by omega
  have insideResult : k < bytesCount := by omega
  cases reallocated with
  | inPlace => rfl
  | refused => exact absurd rfl served
  | lost => exact absurd rfl served
  | @fromPool _ middle _ i o bound block address short allocated _ released =>
      have old : Extent pool m (p :: out) p (pool.elementSize i) := by
        refine Extent.block i o bound block address ?_
        rw [address, Pool.offsets_cons_block bound block]
        exact List.mem_cons_self
      rcases sound.allocated_extent positive bytesBound valid allocated served with
        ⟨size, large, result⟩
      have placed : Extent pool { middle with mem := middle.mem.move r p (pool.elementSize i) }
          (r :: out) r size := result.transfer List.mem_cons_self (fun _ live => live)
      have moved : m'.mem (r + k) = middle.mem.move r p (pool.elementSize i) (r + k) :=
        placed.kept released.confined (Nat.le_add_right _ _) (by omega)
      rw [moved, Memory.move_inside (by rw [← extent.unique sound old]; exact insideBlock)]
      exact congrFun allocated.confined.2 _
  | @fromHeap _ middle elsewhere allocated _ =>
      have usable : middle.heap.getUsableSpace p = n := by
        cases extent with
        | block i o bound block address listed =>
            have found := Pool.findBucket_block bound block
            rw [← address] at found
            omega
        | heap _ _ live apart =>
            have after := sound.allocated positive allocated served
            exact GenericAllocator.getUsableSpace_of_live after.ledger.apart (allocated.live live)
      change middle.mem.move r p (min (middle.heap.getUsableSpace p) bytesCount) (r + k) = _
      rw [usable, Memory.move_inside inside]
      exact congrFun allocated.confined.2 _

end Sound

end SmMalloc
