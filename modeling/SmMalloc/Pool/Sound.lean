import SmMalloc.Pool.Ledger

namespace SmMalloc

open Foundation

/-!
# The machine as a whole

`Sound` is what holds of a machine between any two operations: the blocks of
the pool are divided exactly, the cache buckets are in use or at rest, the
blocks of the fallback heap are divided exactly, and the addresses outside are
real addresses.  Every request keeps it, with the list of outside addresses
changed by what the request hands out or takes back.
-/

variable {scheme : Partitioning} {pool : Pool scheme} {m m' : Machine} {w : World}
variable {a i t o p r x : Nat} {bytesCount alignment : Nat} {rest out out' : List Nat}

namespace TlsPoolBucket

/-- A cache bucket that is not in use. -/
structure Idle (slot : TlsPoolBucket) : Prop where
  numElementsL0 : slot.numElementsL0 = 0
  numElementsL1 : slot.numElementsL1 = 0
  pBucket : slot.pBucket = none
  pBucketData : slot.pBucketData = 0
  pStorageL1 : slot.pStorageL1 = 0
  maxElementsCount : slot.maxElementsCount = 0

/-- A cache bucket in use for bucket `i` of allocator `a`. -/
structure Serving (a i : Nat) (slot : TlsPoolBucket) : Prop where
  pBucket : slot.pBucket = some (a, i)
  bounded : slot.Bounded

variable {slot slot' : TlsPoolBucket}

theorem Idle.bounded (idle : slot.Idle) : slot.Bounded where
  levelL0 := by rw [idle.numElementsL0]; exact Nat.zero_le _
  levelL1 := by rw [idle.numElementsL1]; exact Nat.zero_le _
  room := by rw [idle.maxElementsCount]; decide
  closed := fun _ => idle.numElementsL0
  slots := by rw [idle.maxElementsCount]; decide

theorem Idle.kept (idle : slot.Idle) (kept : slot.Kept slot') : slot'.Idle := by
  have bounded := kept.bounded idle.bounded
  have closed : slot'.maxElementsCount = 0 := kept.maxElementsCount.trans idle.maxElementsCount
  have level1 := bounded.levelL1
  exact ⟨bounded.closed closed, by omega, kept.pBucket.trans idle.pBucket,
    kept.pBucketData.trans idle.pBucketData, kept.pStorageL1.trans idle.pStorageL1, closed⟩

theorem Serving.kept (serving : slot.Serving a i) (kept : slot.Kept slot') : slot'.Serving a i where
  pBucket := kept.pBucket.trans serving.pBucket
  bounded := kept.bounded serving.bounded

end TlsPoolBucket

theorem cached_of_idle (idle : (m.tls t i).Idle) : m.cached a i t = [] := by
  rw [Machine.cached, idle.pBucket, if_neg (by intro h; cases h)]

/-- The state of the machine between operations, when the addresses in `out`
are outside. -/
structure Sound (pool : Pool scheme) (a : Nat) (rest : List Nat) (m : Machine) (out : List Nat) :
    Prop where
  inv : PoolInv pool a m out
  slots : forall t i, (m.tls t i).Idle ∨ (m.tls t i).Serving a i
  ledger : Ledger pool rest m out
  addresses : forall p, p ∈ out -> kMaxValidAlignment < p ∧ p < 2 ^ 64

/-- A change of thread `t` only is a change of all threads that keeps the others. -/
theorem Confined.kept (confined : Confined pool a t out m m')
    (slots : forall j, (m.tls t j).Kept (m'.tls t j)) (u j : Nat) :
    (m.tls u j).Kept (m'.tls u j) := by
  by_cases same : u = t
  · subst same; exact slots j
  · rw [confined.threads u same]
    exact TlsPoolBucket.Kept.refl _

/-- The block at `p` has not been given back: it lies in a bucket, or it is
still a live block of the fallback heap. -/
def Pool.StillThere (pool : Pool scheme) (m : Machine) (p : Nat) : Prop :=
  pool.findBucket p < pool.bucketsCount ∨ m.heap.Live p

namespace Sound

/-- The stack of a cache bucket in use is as large as its capacity asks for. -/
theorem caching (sound : Sound pool a rest m out) (serving : (m.tls t i).Serving a i) :
    m.Caching a i t := by
  have stored := (sound.inv.attached t i i serving.pBucket).2.pStorageL1
  refine ⟨serving.pBucket, serving.bounded, stored, ?_⟩
  have space := GenericAllocator.getUsableSpace_of_live sound.ledger.apart
    (sound.ledger.regions t i stored)
  have slots : stackElements (m.tls t i).maxElementsCount =
      (m.tls t i).maxElementsCount + maxCacheItemsCount := Nat.mod_eq_of_lt serving.bounded.slots
  simp only [TlsPoolBucket.stackRegion, slots] at space
  omega

theorem idle_or_caching (sound : Sound pool a rest m out) (t i : Nat) :
    (m.tls t i).Idle ∨ m.Caching a i t := (sound.slots t i).imp id sound.caching

theorem ready (sound : Sound pool a rest m out) (t : Nat) : m.Ready a t := by
  intro i
  rcases sound.idle_or_caching t i with idle | caching
  · exact ⟨idle.bounded, Or.inr idle.maxElementsCount⟩
  · exact ⟨caching.bounded, Or.inl caching⟩

theorem kept_slots (sound : Sound pool a rest m out)
    (kept : forall u j, (m.tls u j).Kept (m'.tls u j)) (u j : Nat) :
    (m'.tls u j).Idle ∨ (m'.tls u j).Serving a j := by
  rcases sound.slots u j with idle | serving
  · exact Or.inl (idle.kept (kept u j))
  · exact Or.inr (serving.kept (kept u j))

theorem perm (sound : Sound pool a rest m out) (perm : out'.Perm out) :
    Sound pool a rest m out' where
  inv := sound.inv.perm perm
  slots := sound.slots
  ledger := sound.ledger.perm perm
  addresses := fun p member => sound.addresses p (perm.mem_iff.mp member)

theorem tail_addresses (sound : Sound pool a rest m (p :: out)) :
    forall q, q ∈ out -> kMaxValidAlignment < q ∧ q < 2 ^ 64 :=
  fun q member => sound.addresses q (List.mem_cons_of_mem p member)

/-- No address is outside twice. -/
theorem fresh (sound : Sound pool a rest m (p :: out)) : p ∉ out := by
  intro again
  have address := sound.addresses p List.mem_cons_self
  rcases sound.inv.outside_cases address.2 with elsewhere | ⟨i, o, bound, block, rfl⟩
  · have nodup := sound.ledger.custody.nodup HeapHolder.client
    simp only [Machine.heapShares, Pool.elsewhere, List.filter_cons, elsewhere, decide_true,
      if_true, List.nodup_cons] at nodup
    exact nodup.1 (List.mem_filter.mpr ⟨again, decide_eq_true elsewhere⟩)
  · apply sound.inv.fresh_offset bound block
    exact Pool.mem_offsets.mpr ⟨_, again, Pool.findBucket_block bound block, by omega⟩

/-! ## Allocation -/

/-- The outcome of a request for some bytes. -/
theorem request (sound : Sound pool a rest w.toMachine out) (t : Nat)
    (valid : ValidAlignment alignment) (nonempty : bytesCount ≠ 0) :
    Allocated pool a t bytesCount alignment out w.toMachine
      (Allocator.alloc scheme w a t bytesCount alignment).1
      (Allocator.alloc scheme w a t bytesCount alignment).2.toMachine :=
  (sound.inv.allocate true valid nonempty (fun _ => (sound.ready t).usable _)).1

theorem block_address (bound : i < pool.bucketsCount) (block : pool.IsBlock i o) :
    kMaxValidAlignment < pool.pData i + o ∧ pool.pData i + o < 2 ^ 64 := by
  have readable := pool.pData_readable i
  have fits := block.end_le bound
  have positive := Pool.element_pos bound
  have top := Pool.bucket_end_lt bound
  omega

theorem elsewhere_cons_block (bound : i < pool.bucketsCount) (block : pool.IsBlock i o) :
    pool.elsewhere ((pool.pData i + o) :: out) = pool.elsewhere out := by
  have inside : ¬ pool.bucketsCount ≤ i := Nat.not_le_of_lt bound
  simp [Pool.elsewhere, Pool.findBucket_block bound block, inside]

theorem taken (sound : Sound pool a rest m out) (bound : i < pool.bucketsCount)
    (taken : Taken pool a t i o out m m') : Sound pool a rest m' ((pool.pData i + o) :: out) where
  inv := taken.inv
  slots := sound.kept_slots (taken.confined.kept taken.slots)
  ledger := sound.ledger.congr taken.heap
    (fun u j => (taken.confined.kept taken.slots u j).sameStack)
    (elsewhere_cons_block bound taken.block)
  addresses := by
    intro p member
    rcases List.mem_cons.mp member with rfl | old
    · exact block_address bound taken.block
    · exact sound.addresses p old

/-- An allocation that is served adds its result. -/
theorem allocated (sound : Sound pool a rest m out) (positive : 0 < bytesCount)
    (allocated : Allocated pool a t bytesCount alignment out m p m') (served : p ≠ 0) :
    Sound pool a rest m' (p :: out) := by
  have inv := allocated.inv sound.inv positive
  cases allocated with
  | block j o bound _ _ taken => exact sound.taken bound taken
  | generic =>
      have serves := GenericAllocator.serves_of_answer served
      refine ⟨inv, sound.slots, ?_, ?_⟩
      · exact sound.ledger.acquire_client served (sound.inv.answer_elsewhere positive)
      · intro p member
        rcases List.mem_cons.mp member with rfl | old
        · have addressable := serves.2.1
          exact ⟨serves.1, by omega⟩
        · exact sound.addresses p old

/-- An allocation that is refused changes nothing that matters. -/
theorem refused (sound : Sound pool a rest m out) (positive : 0 < bytesCount)
    (allocated : Allocated pool a t bytesCount alignment out m 0 m') :
    Sound pool a rest m' out := by
  have inv := allocated.inv sound.inv positive
  generalize zero : (0 : Nat) = p at allocated
  cases allocated with
  | block j o bound _ _ taken => exact absurd zero.symm (pool.block_ne_zero j o)
  | generic =>
      refine ⟨?_, sound.slots, sound.ledger.refused zero.symm, sound.addresses⟩
      apply inv.of_cons_elsewhere
      rw [zero]
      exact sound.inv.answer_elsewhere positive

/-! ## Release -/

theorem released (sound : Sound pool a rest m ((pool.pData i + o) :: out))
    (bound : i < pool.bucketsCount) (block : pool.IsBlock i o)
    (released : Released pool a t out m m') : Sound pool a rest m' out where
  inv := released.inv
  slots := sound.kept_slots (released.confined.kept released.slots)
  ledger := sound.ledger.congr released.heap
    (fun u j => (released.confined.kept released.slots u j).sameStack)
    (elsewhere_cons_block bound block).symm
  addresses := sound.tail_addresses

theorem heap_free (sound : Sound pool a rest m (p :: out))
    (elsewhere : pool.bucketsCount ≤ pool.findBucket p) :
    Sound pool a rest { m with heap := m.heap.free p } out where
  inv := sound.inv.heap_free elsewhere
  slots := sound.slots
  ledger := by
    apply sound.ledger.release_client _ elsewhere
    have readable := (sound.addresses p List.mem_cons_self).1
    omega
  addresses := sound.tail_addresses

/-- `Free` of an address that is outside. -/
theorem free (sound : Sound pool a rest w.toMachine (p :: out)) (t : Nat) :
    Sound pool a rest (Allocator.free w a t p).toMachine out ∧
      Confined pool a t out w.toMachine (Allocator.free w a t p).toMachine ∧
      (forall j, (w.tls t j).Kept ((Allocator.free w a t p).tls t j)) ∧
      (Allocator.free w a t p).failed = w.failed := by
  have address := sound.addresses p List.mem_cons_self
  rcases sound.inv.outside_cases address.2 with elsewhere | ⟨i, o, bound, block, rfl⟩
  · rw [sound.inv.free_generic address.1 elsewhere]
    refine ⟨sound.heap_free elsewhere, ?_, fun _ => TlsPoolBucket.Kept.refl _, rfl⟩
    exact Confined.of_mem_eq (fun _ _ => rfl) (fun _ _ => rfl) rfl
  · rcases sound.inv.free_block bound block ((sound.ready t).accepting i) with ⟨freed, failed⟩
    exact ⟨sound.released bound block freed, freed.confined, freed.slots, failed⟩

/-! ## Stores into blocks that are outside -/

/-- The live block at an address on the fallback heap. -/
theorem region (sound : Sound pool a rest m (p :: out))
    (elsewhere : pool.bucketsCount ≤ pool.findBucket p) :
    ∃ size, m.heap.getUsableSpace p = size ∧ ⟨p, size⟩ ∈ m.heap.live ∧
      Region.Apart ⟨p, size⟩ ⟨pool.base, pool.bucketsCount * pool.bucketSizeInBytes⟩ := by
  have held : p ∈ m.heapShares pool rest (p :: out) HeapHolder.client := by
    simp [Machine.heapShares, Pool.elsewhere, elsewhere]
  have live : m.heap.Live p := sound.ledger.custody.supplied _ held
  have notPool : p ≠ pool.base := by
    rintro rfl
    have owned : pool.base ∈ m.heapShares pool rest (pool.base :: out) HeapHolder.pool :=
      List.mem_singleton.mpr rfl
    cases sound.ledger.custody.holder_unique held owned
  rcases List.mem_map.mp live with ⟨r, member, rfl⟩
  refine ⟨r.size, GenericAllocator.getUsableSpace_of_live sound.ledger.apart member, member, ?_⟩
  have : Std.Symm Region.Apart := ⟨fun _ _ apart => apart.symm⟩
  apply sound.ledger.apart.forall member sound.inv.buffer
  rintro rfl
  exact notPool rfl

/-- Changing bytes that are not the allocator's. -/
theorem write (sound : Sound pool a rest m out) {mem : Memory}
    (changed : forall x, mem x ≠ m.mem x ->
      (x < pool.base ∨ pool.base + pool.bucketsCount * pool.bucketSizeInBytes ≤ x) ∨
      ∃ i o, i < pool.bucketsCount ∧ o ∈ pool.offsets out i ∧ pool.pData i + o ≤ x ∧
        x < pool.pData i + o + pool.elementSize i) :
    Sound pool a rest { m with mem := mem } out where
  inv := sound.inv.write_out changed
  slots := sound.slots
  ledger := sound.ledger.congr rfl (fun _ _ => TlsPoolBucket.SameStack.refl _) rfl
  addresses := sound.addresses

/-! ## Reallocation -/

/-- The outcome of a reallocation of an address that is outside. -/
theorem relocation (sound : Sound pool a rest w.toMachine (p :: out)) (t : Nat)
    (valid : ValidAlignment alignment) (nonempty : bytesCount ≠ 0)
    (bytesBound : bytesCount < 2 ^ 64) :
    Reallocated pool a t p bytesCount alignment out w.toMachine
      (Allocator.realloc scheme w a t p bytesCount alignment).1
      (Allocator.realloc scheme w a t p bytesCount alignment).2.toMachine := by
  have address := sound.addresses p List.mem_cons_self
  exact (sound.inv.realloc (sound.ready t) address.1 address.2 valid nonempty bytesBound).1

/-- Data moved into a block that has just been allocated. -/
theorem moved {count : Nat} (sound : Sound pool a rest m out) (source : Nat)
    (positive : 0 < bytesCount)
    (bytesBound : bytesCount < 2 ^ 64) (valid : ValidAlignment alignment)
    (allocated : Allocated pool a t bytesCount alignment out m r m') (served : r ≠ 0)
    (amount : count ≤ bytesCount) :
    Sound pool a rest { m' with mem := m'.mem.move r source count } (r :: out) := by
  have after := sound.allocated positive allocated served
  refine ⟨?_, after.slots, ?_, after.addresses⟩
  · exact allocated.move sound.inv source positive bytesBound valid served amount
  · exact after.ledger.congr rfl (fun _ _ => TlsPoolBucket.SameStack.refl _) rfl

/-- A successful reallocation hands out its result in place of the old block. -/
theorem reallocated (sound : Sound pool a rest m (p :: out)) (positive : 0 < bytesCount)
    (bytesBound : bytesCount < 2 ^ 64) (valid : ValidAlignment alignment)
    (reallocated : Reallocated pool a t p bytesCount alignment out m r m') (served : r ≠ 0) :
    Sound pool a rest m' (r :: out) := by
  cases reallocated with
  | inPlace => exact sound
  | refused => exact absurd rfl served
  | lost => exact absurd rfl served
  | fromPool i o bound block address short allocated _ released =>
      subst address
      have swapped := (sound.moved (pool.pData i + o) positive bytesBound valid allocated
        served (Nat.le_of_lt short)).perm (List.Perm.swap _ _ _)
      exact swapped.released bound block released
  | @fromHeap _ middle elsewhere allocated _ =>
      have swapped := (sound.moved p positive bytesBound valid allocated served
        (Nat.min_le_right (middle.heap.getUsableSpace p) bytesCount)).perm
          (List.Perm.swap _ _ _)
      exact swapped.heap_free elsewhere

/-- After a reallocation that returns null, the old block is outside exactly
if it has not been given back. -/
theorem reallocated_null (sound : Sound pool a rest m (p :: out)) (positive : 0 < bytesCount)
    (reallocated : Reallocated pool a t p bytesCount alignment out m 0 m') :
    (pool.StillThere m' p -> Sound pool a rest m' (p :: out)) ∧
      (¬ pool.StillThere m' p -> Sound pool a rest m' out) := by
  have address := sound.addresses p List.mem_cons_self
  generalize zero : (0 : Nat) = r at reallocated
  cases reallocated with
  | inPlace => omega
  | refused allocated =>
      have after := sound.refused positive allocated
      refine ⟨fun _ => after, fun gone => absurd ?_ gone⟩
      by_cases inside : pool.findBucket p < pool.bucketsCount
      · exact Or.inl inside
      · right
        apply after.ledger.custody.supplied HeapHolder.client
        simp [Machine.heapShares, Pool.elsewhere, Nat.le_of_not_lt inside]
  | lost elsewhere allocated =>
      have after := (sound.refused positive allocated).heap_free elsewhere
      refine ⟨fun there => absurd there ?_, fun _ => after⟩
      rintro (inside | live)
      · omega
      · have nonzero : p ≠ 0 := by omega
        exact ((GenericAllocator.live_free nonzero p).mp live).2 rfl
  | fromPool _ _ _ _ _ _ _ served => exact absurd zero.symm served
  | fromHeap _ _ served => exact absurd zero.symm served

/-- A reallocation writes only bytes of its result and bytes of free blocks. -/
theorem reallocated_mem (sound : Sound pool a rest m (p :: out)) (positive : 0 < bytesCount)
    (reallocated : Reallocated pool a t p bytesCount alignment out m r m')
    (changed : m'.mem x ≠ m.mem x) :
    pool.FreeByte (r :: out) x ∨ (r ≠ p ∧ r ≤ x ∧ x < r + bytesCount) := by
  cases reallocated with
  | inPlace => exact absurd rfl changed
  | refused allocated => exact absurd (congrFun allocated.confined.2 x) changed
  | lost _ allocated => exact absurd (congrFun allocated.confined.2 x) changed
  | @fromPool _ middle _ i o bound block address short allocated served released =>
      have fresh := (sound.allocated positive allocated served).fresh
      by_cases late : m'.mem x = middle.mem.move r p (pool.elementSize i) x
      · right
        refine ⟨fun same => fresh (same ▸ List.mem_cons_self), ?_⟩
        by_contra outside
        rw [late, Memory.move_outside (by omega)] at changed
        exact changed (congrFun allocated.confined.2 x)
      · exact Or.inl (released.confined.mem x late)
  | @fromHeap _ middle elsewhere allocated served =>
      have fresh := (sound.allocated positive allocated served).fresh
      right
      refine ⟨fun same => fresh (same ▸ List.mem_cons_self), ?_⟩
      by_contra outside
      have amount := Nat.min_le_right (middle.heap.getUsableSpace p) bytesCount
      have kept : middle.mem.move r p (min (middle.heap.getUsableSpace p) bytesCount) x =
          middle.mem x := Memory.move_outside (by omega)
      exact changed (kept.trans (congrFun allocated.confined.2 x))

end Sound

end SmMalloc
