import SmMalloc.Pool.Layout

namespace SmMalloc

open Foundation

/-!
# Positions in 32 bits

`Create`, `FreeInterval`, `ReleaseToCache` and `ReturnL1CacheToMaster` store the
address of a block as its distance from the beginning of the bucket, in 32 bits.
The size of a bucket has 64 bits, and nothing checks that the distance fits.
The theorem here says for which sizes what is stored leads back to the block,
and `Init` asks for the buffer that it needs.
-/

variable {scheme : Partitioning} {w w' v : World} {a i k p t : Nat}
variable {_bucketsCount _bucketSizeInBytes : Nat}

/-- `p` is the address of a block that lies inside bucket `i`. -/
def World.HasBlock (scheme : Partitioning) (w : World) (a i p : Nat) : Prop :=
  ∃ k, p = (w.bucket a i).pData + k * scheme.getBucketSizeInBytesByIndex i ∧
    k * scheme.getBucketSizeInBytesByIndex i + scheme.getBucketSizeInBytesByIndex i ≤
      (w.allocs a).bucketSizeInBytes

/-- What `Create` has stored for block `k`: in the head for the first block, and
in the block before it for any other. -/
def World.createdOffset (scheme : Partitioning) (w : World) (a i : Nat) : Nat -> UInt32
  | 0 => (w.bucket a i).head.offset
  | k + 1 => (TaggedIndex.load w.mem
      ((w.bucket a i).pData + k * scheme.getBucketSizeInBytesByIndex i)).offset

namespace TlsPoolBucket

/-- The cache bucket is attached to bucket `i`, and has a stack. -/
structure AttachedTo (slot : TlsPoolBucket) (w : World) (a i : Nat) : Prop where
  pBucket : slot.pBucket = some (a, i)
  pBucketData : slot.pBucketData = (w.bucket a i).pData
  pStorageL1 : slot.pStorageL1 ≠ 0

/-- The offset that has been pushed onto one of the levels. -/
def pushed (old new : TlsPoolBucket) : UInt32 :=
  if old.numElementsL0 < new.numElementsL0 then new.storageL0 old.numElementsL0
  else new.storageL1 (new.numElementsL1 - 1)

end TlsPoolBucket

/-- What is stored for a block of bucket `i` of the pool that `Init` has left in
`w` leads back to the block, there and in all later states. -/
structure StoresExactly (scheme : Partitioning) (w : World) (a i : Nat) : Prop where
  create : forall k, k * scheme.getBucketSizeInBytesByIndex i +
      scheme.getBucketSizeInBytesByIndex i ≤ (w.allocs a).bucketSizeInBytes ->
    (w.bucket a i).pData + (w.createdOffset scheme a i k).toNat =
      (w.bucket a i).pData + k * scheme.getBucketSizeInBytesByIndex i
  freeInterval : forall p, w.HasBlock scheme a i p -> forall (m : Machine) (pTail : Nat),
    (m.bucket a i).pData = (w.bucket a i).pData ->
    (w.bucket a i).pData +
      ((PoolBucket.freeInterval m a i p pTail).bucket a i).head.offset.toNat = p
  releaseToCache : forall p, w.HasBlock scheme a i p ->
    forall (v : World) (t : Nat) (useCacheL0 : Bool), (v.tls t i).AttachedTo w a i ->
    (v.tls t i).maxElementsCount ≠ 0 ->
    (w.bucket a i).pData +
      ((v.tls t i).pushed ((Allocator.releaseToCache useCacheL0 v t i p).2.tls t i)).toNat = p
  returnL1CacheToMaster : forall ps : List Nat, (forall p, p ∈ ps -> w.HasBlock scheme a i p) ->
    ps.Nodup -> forall (v : World) (t count : Nat), (v.tls t i).AttachedTo w a i ->
    (v.bucket a i).pData = (w.bucket a i).pData ->
    (v.tls t i).offsetsL1 =
      ps.map (fun p => (UInt32.ofNat (sizeSub p (w.bucket a i).pData)).toNat) ->
    0 < count ->
    let after := TlsPoolBucket.returnL1CacheToMaster v t i count
    let returned := ps.drop (ps.length - count)
    (forall p, returned.head? = some p ->
        (w.bucket a i).pData + (after.bucket a i).head.offset.toNat = p) ∧
      forall earlier p p' later, returned = earlier ++ p :: p' :: later ->
        (w.bucket a i).pData + (TaggedIndex.load after.mem p).offset.toNat = p'
  simple : ∃ nodes, w.Lists a i nodes ∧ nodes.Nodup

/-- The bucket size rounded up to whole pages, in natural numbers. -/
def pagesOf (_bucketSizeInBytes : Nat) : Nat := (_bucketSizeInBytes + 4095) / 4096 * 4096

/-- The arithmetic of the pool is exact: the buffer that `Init` has asked for has
the size that it should have, and all stored offsets lead back to their blocks. -/
structure ExactAddresses (scheme : Partitioning) (_bucketsCount _bucketSizeInBytes : Nat)
    (w w' : World) (a : Nat) : Prop where
  bytes : ∃ q, w'.heap.events =
    .alloc (_bucketsCount * pagesOf _bucketSizeInBytes) kMaxValidAlignment q :: w.heap.events
  buckets : forall i, i < (w'.allocs a).bucketsCount -> StoresExactly scheme w' a i

/-! ## What the functions store -/

theorem PoolBucket.freeInterval_head (m : Machine) (a i p pTail : Nat) :
    ((freeInterval m a i p pTail).bucket a i).head.offset =
      UInt32.ofNat (sizeSub p (m.bucket a i).pData) := by
  rw [freeInterval, Machine.setBucket_bucket_same]

theorem World.pushL1_slot (stored : (w.tls t i).pStorageL1 ≠ 0) (offset : UInt32) :
    (w.pushL1 t i offset).tls t i = { w.tls t i with
      storageL1 := Function.update (w.tls t i).storageL1 (w.tls t i).numElementsL1 offset
      numElementsL1 := (w.tls t i).numElementsL1 + 1 } := by
  simp only [pushL1, if_neg stored, setTls_toMachine]
  exact Machine.setTls_same _ i t _

theorem returnL1CacheToMaster_slot (owner : (w.tls t i).pBucket = some (a, i)) (count : Nat) :
    ∃ n, (TlsPoolBucket.returnL1CacheToMaster w t i count).tls t i =
      { w.tls t i with numElementsL1 := n } := by
  rcases returnL1_cases count owner with ⟨same, -⟩ | ⟨n, -, flushed⟩
  · exact ⟨(w.tls t i).numElementsL1, by rw [same]⟩
  · exact ⟨(w.tls t i).numElementsL1 - (n + 1), by rw [flushed]; exact w.toMachine.flush_slot a i t n⟩

/-- `ReleaseToCache` of a cache bucket that takes blocks, without its assertions. -/
theorem releaseToCache_opened (opened : (v.tls t i).maxElementsCount ≠ 0) (useCacheL0 : Bool)
    (p : Nat) : ∃ checked : World, checked.toMachine = v.toMachine ∧
      Allocator.releaseToCache useCacheL0 v t i p =
        let self := v.tls t i
        let offset := UInt32.ofNat (sizeSub p self.pBucketData)
        if useCacheL0 = true ∧ self.numElementsL0 < maxCacheItemsCount then
          (true, checked.setTls t i { self with
            storageL0 := Function.update self.storageL0 self.numElementsL0 offset
            numElementsL0 := self.numElementsL0 + 1 })
        else if self.numElementsL1 < self.maxElementsCount then (true, checked.pushL1 t i offset)
        else (true, (TlsPoolBucket.returnL1CacheToMaster checked t i
          (self.numElementsL1 >>> 1)).pushL1 t i offset) := by
  refine ⟨_, ?_, if_neg opened⟩
  rw [World.check_toMachine, World.check_toMachine, World.check_toMachine]

/-- `ReleaseToCache` pushes the distance of the block, in 32 bits. -/
theorem releaseToCache_pushed (attached : (v.tls t i).AttachedTo w a i)
    (opened : (v.tls t i).maxElementsCount ≠ 0) (useCacheL0 : Bool) (p : Nat) :
    (v.tls t i).pushed ((Allocator.releaseToCache useCacheL0 v t i p).2.tls t i) =
      UInt32.ofNat (sizeSub p (w.bucket a i).pData) := by
  rcases releaseToCache_opened opened useCacheL0 p with ⟨checked, machine, result⟩
  have slot : checked.tls t i = v.tls t i := by rw [machine]
  have owner : (checked.tls t i).pBucket = some (a, i) := slot ▸ attached.pBucket
  have stored : (checked.tls t i).pStorageL1 ≠ 0 := slot ▸ attached.pStorageL1
  rw [result]
  simp only [attached.pBucketData]
  split
  · -- level 0 has got one block more
    simp only [World.setTls_toMachine, Machine.setTls_same, TlsPoolBucket.pushed,
      if_pos (Nat.lt_succ_self _), Function.update_self]
  split
  · rw [World.pushL1_slot stored, slot]
    simp only [TlsPoolBucket.pushed, if_neg (Nat.lt_irrefl _), Nat.add_sub_cancel,
      Function.update_self]
  · rcases returnL1CacheToMaster_slot owner ((v.tls t i).numElementsL1 >>> 1) with ⟨n, flushed⟩
    rw [slot] at flushed
    have still : ((TlsPoolBucket.returnL1CacheToMaster checked t i
        ((v.tls t i).numElementsL1 >>> 1)).tls t i).pStorageL1 ≠ 0 := by
      rw [flushed]
      exact attached.pStorageL1
    rw [World.pushL1_slot still, flushed]
    simp only [TlsPoolBucket.pushed, if_neg (Nat.lt_irrefl _), Nat.add_sub_cancel,
      Function.update_self]

/-! ## Buckets of at most four gigabytes -/

/-- The stored distance of a block is its distance. -/
theorem World.HasBlock.stored (block : w.HasBlock scheme a i p)
    (positive : 16 ≤ scheme.getBucketSizeInBytesByIndex i)
    (small : (w.allocs a).bucketSizeInBytes ≤ 2 ^ 32) :
    (UInt32.ofNat (sizeSub p (w.bucket a i).pData)).toNat = p - (w.bucket a i).pData ∧
      (w.bucket a i).pData ≤ p ∧ p - (w.bucket a i).pData < 2 ^ 32 - 8 := by
  rcases block with ⟨k, rfl, fits⟩
  have distance : sizeSub ((w.bucket a i).pData + k * scheme.getBucketSizeInBytesByIndex i)
      (w.bucket a i).pData = k * scheme.getBucketSizeInBytesByIndex i := by
    unfold sizeSub
    omega
  rw [distance, Nat.add_sub_cancel_left, UInt32.toNat_ofNat', Nat.mod_eq_of_lt (by omega)]
  omega

/-- And so it leads back. -/
theorem World.HasBlock.decodes (block : w.HasBlock scheme a i p)
    (positive : 16 ≤ scheme.getBucketSizeInBytesByIndex i)
    (small : (w.allocs a).bucketSizeInBytes ≤ 2 ^ 32) :
    (w.bucket a i).pData + (UInt32.ofNat (sizeSub p (w.bucket a i).pData)).toNat = p := by
  have stored := block.stored positive small
  omega

theorem World.HasBlock.apart {q : Nat} (block : w.HasBlock scheme a i p)
    (block' : w.HasBlock scheme a i q) (positive : 16 ≤ scheme.getBucketSizeInBytesByIndex i)
    (different : p ≠ q) :
    p - (w.bucket a i).pData + 8 ≤ q - (w.bucket a i).pData ∨
      q - (w.bucket a i).pData + 8 ≤ p - (w.bucket a i).pData := by
  rcases block with ⟨k, rfl, -⟩
  rcases block' with ⟨k', rfl, -⟩
  have other : k ≠ k' := by
    rintro rfl
    exact different rfl
  have spaced := cells_apart other (scheme.getBucketSizeInBytesByIndex i)
  omega

/-- The blocks that `ReturnL1CacheToMaster` puts on the list. -/
theorem returnL1CacheToMaster_decodes {ps : List Nat} {count : Nat}
    (positive : 16 ≤ scheme.getBucketSizeInBytesByIndex i)
    (small : (w.allocs a).bucketSizeInBytes ≤ 2 ^ 32)
    (blocks : forall p, p ∈ ps -> w.HasBlock scheme a i p) (nodup : ps.Nodup)
    (attached : (v.tls t i).AttachedTo w a i)
    (data : (v.bucket a i).pData = (w.bucket a i).pData)
    (stack : (v.tls t i).offsetsL1 =
      ps.map (fun p => (UInt32.ofNat (sizeSub p (w.bucket a i).pData)).toNat))
    (nonzero : 0 < count) :
    let after := TlsPoolBucket.returnL1CacheToMaster v t i count
    let returned := ps.drop (ps.length - count)
    (forall p, returned.head? = some p ->
        (w.bucket a i).pData + (after.bucket a i).head.offset.toNat = p) ∧
      forall earlier p p' later, returned = earlier ++ p :: p' :: later ->
        (w.bucket a i).pData + (TaggedIndex.load after.mem p).offset.toNat = p' := by
  intro after returned
  have length : (v.tls t i).numElementsL1 = ps.length := by
    have lengths := congrArg List.length stack
    rwa [TlsPoolBucket.offsetsL1, List.length_map, List.length_map, List.length_range] at lengths
  rcases returnL1_cases count attached.pBucket with ⟨-, nothing⟩ | ⟨n, amount, flushed⟩
  · have empty : returned = [] := List.drop_of_length_le (by omega)
    rw [empty]
    refine ⟨fun p head => ?_, fun earlier p p' later parts => ?_⟩
    · cases head
    · cases earlier <;> cases parts
  have members : forall p, p ∈ returned -> w.HasBlock scheme a i p :=
    fun p member => blocks p (List.mem_of_mem_drop member)
  have list : (v.tls t i).returned (n + 1) = returned.map (fun p => p - (w.bucket a i).pData) := by
    have place : (v.tls t i).numElementsL1 - (n + 1) = ps.length - count := by omega
    rw [TlsPoolBucket.returned_eq_drop (by omega), stack, ← List.map_drop, place]
    exact List.map_congr_left (fun p member => ((members p member).stored positive small).1)
  have apart : ((v.tls t i).returned (n + 1)).Pairwise (fun x y => x + 8 ≤ y ∨ y + 8 ≤ x) := by
    rw [list, List.pairwise_map]
    have distinct : returned.Nodup := nodup.sublist (List.drop_sublist _ _)
    apply List.Pairwise.imp_of_mem _ distinct
    exact fun inX inY different => (members _ inX).apart (members _ inY) positive different
  have running : forall value : TaggedIndex,
      value.offset.toNat ∈ (v.tls t i).returned (n + 1) -> value ≠ TaggedIndex.invalid := by
    rintro value member rfl
    have allBits : TaggedIndex.invalid.offset.toNat = 2 ^ 32 - 1 := by decide
    rw [list] at member
    rcases List.mem_map.mp member with ⟨p, inside, named⟩
    have bound := ((members p inside).stored positive small).2.2
    omega
  rcases v.toMachine.flushMem_threaded (a := a) attached.pBucketData apart running with
    ⟨threaded, -⟩
  have machine : after.toMachine = v.toMachine.flush a i t n := by
    change (TlsPoolBucket.returnL1CacheToMaster v t i count).toMachine = _
    rw [flushed]
  rw [Machine.flush_eq] at machine
  constructor
  · intro p head
    have first : ((v.tls t i).storageL1 ((v.tls t i).numElementsL1 - (n + 1))).toNat =
        p - (w.bucket a i).pData := by
      have heads := congrArg List.head? list
      rw [TlsPoolBucket.returned_succ, List.head?_map, head] at heads
      exact Option.some.inj heads
    have block := members p (List.mem_of_head? head)
    have back := (block.stored positive small).2.1
    rw [machine, Machine.setTls_bucket, Machine.setBucket_bucket_same, first,
      attached.pBucketData, data, Nat.add_sub_cancel' back]
    exact block.decodes positive small
  · intro earlier p p' later parts
    have inP : p ∈ returned := by
      rw [parts]
      exact List.mem_append_right _ List.mem_cons_self
    have inP' : p' ∈ returned := by
      rw [parts]
      exact List.mem_append_right _ (List.mem_cons_of_mem p List.mem_cons_self)
    have back := ((members p inP).stored positive small).2.1
    have back' := ((members p' inP').stored positive small).2.1
    rw [list, parts, List.map_append, List.map_cons, List.map_cons] at threaded
    have named := threaded.target
    have mem : after.mem = v.toMachine.flushMem a i t n := by
      rw [machine]
      rfl
    rw [linksAt, Nat.add_sub_cancel' back] at named
    rw [mem]
    change (TaggedIndex.load (v.toMachine.flushMem a i t n) p).offset.toNat = _ at named
    omega

/-! ## What Init leaves -/

theorem align_pages (_bucketSizeInBytes : Nat) (small : _bucketSizeInBytes + 4096 ≤ 2 ^ 64) :
    align _bucketSizeInBytes kMaxValidAlignment = pagesOf _bucketSizeInBytes := by
  have valid : ValidAlignment kMaxValidAlignment := ⟨12, by decide, rfl⟩
  rw [align_eq valid, pagesOf]
  unfold kMaxValidAlignment
  omega

/-- Buckets of size zero: every round of `Init` ends the list of the first node. -/
theorem initBuckets_empty (scheme : Partitioning) {base : Nat} : forall (remaining i : Nat) (w : World),
    (w.allocs a).bucketSizeInBytes = 0 -> (w.allocs a).pBuffer = base ->
    i + remaining ≤ maxBucketCount ->
    0 < remaining ∨ TaggedIndex.load w.mem base = TaggedIndex.invalid ->
    TaggedIndex.load (Allocator.initBuckets scheme a remaining i w).mem base =
      TaggedIndex.invalid := by
  intro remaining
  induction remaining with
  | zero =>
      intro i w _ _ _ stopped
      exact stopped.resolve_left (Nat.lt_irrefl 0)
  | succ remaining ih =>
      intro i w size buffer inside _
      rcases initBuckets_succ scheme w a remaining i with ⟨next, opened, machine, -⟩
      rcases initBucket_fields machine with ⟨same, -, -, -, -, -⟩
      have positive := scheme.size_pos (i := i) (by omega)
      have mem : next.mem = TaggedIndex.store w.mem base TaggedIndex.invalid := by
        have noRoom : ¬ base + scheme.getBucketSizeInBytesByIndex i +
            scheme.getBucketSizeInBytesByIndex i ≤ base := by omega
        rw [machine]
        simp [Machine.initBucket, PoolBucket.create, PoolBucket.createLoop, size, buffer, noRoom]
      rw [opened]
      apply ih (i + 1) next (same.bucketSizeInBytes.trans size) (same.pBuffer.trans buffer)
        (by omega)
      right
      rw [mem, TaggedIndex.load_store]

/-- The lists are simple up to four gigabytes, even if nothing fits into a bucket. -/
theorem init_simple (scheme : Partitioning) (fresh : (w.allocs a).bucketsCount = 0)
    (positive : 1 ≤ _bucketsCount) (small : _bucketSizeInBytes ≤ 2 ^ 32)
    (bound : i < min _bucketsCount maxBucketCount) :
    ∃ nodes, (Allocator.init scheme w a _bucketsCount _bucketSizeInBytes).Lists a i nodes ∧
      nodes.Nodup := by
  by_cases empty : _bucketSizeInBytes = 0
  · subst empty
    have zero : align 0 kMaxValidAlignment = 0 := by decide
    rcases init_opened scheme 0 fresh positive with ⟨ready, start, opened⟩
    have routed := init_routed scheme 0 fresh positive
    have laid := routed.buckets i bound
    have pData := laid.pData
    have size := start.bucketSizeInBytes
    rw [routed.bucketSizeInBytes, zero, Nat.mul_zero, Nat.add_zero, routed.pBuffer] at pData
    rw [zero] at size
    have stopped := initBuckets_empty scheme (min _bucketsCount maxBucketCount) 0 ready size
      start.pBuffer (by omega) (Or.inl (by omega))
    rw [← opened] at stopped
    refine ⟨[0], ?_, List.nodup_singleton 0⟩
    rw [World.Lists, laid.head]
    refine ⟨by decide, rfl, ?_⟩
    rw [linksAt, Nat.add_zero, pData]
    exact stopped
  · have arguments : InitArguments _bucketsCount _bucketSizeInBytes := ⟨positive, by omega, small⟩
    have init := init_spec (a := a) (w := w) scheme arguments fresh
    have elementPos := scheme.size_pos (i := i)
      (Nat.lt_of_lt_of_le bound (Nat.min_le_right _ _))
    refine ⟨_, init.lists arguments bound, ?_⟩
    apply List.Nodup.map _ List.nodup_range
    intro k k' same
    exact Nat.eq_of_mul_eq_mul_right (by omega) same

/-- What `Create` has stored for the blocks inside the buckets. -/
theorem Initialised.createdOffset
    (init : Initialised scheme _bucketsCount _bucketSizeInBytes a w w')
    (small : (w'.allocs a).bucketSizeInBytes ≤ 2 ^ 32)
    (bound : i < min _bucketsCount maxBucketCount)
    (fits : k * scheme.getBucketSizeInBytesByIndex i + scheme.getBucketSizeInBytesByIndex i ≤
      (w'.allocs a).bucketSizeInBytes) :
    (w'.createdOffset scheme a i k).toNat = k * scheme.getBucketSizeInBytesByIndex i := by
  have laid := init.buckets i bound
  have positive := scheme.size_pos (i := i) (Nat.lt_of_lt_of_le bound (Nat.min_le_right _ _))
  cases k with
  | zero =>
      rw [World.createdOffset, laid.created.head, Nat.zero_mul]
      rfl
  | succ k =>
      have difference : (w'.bucket a i).pBufferEnd - (w'.bucket a i).pData =
          (w'.allocs a).bucketSizeInBytes := by
        rw [laid.bufferEnd]
        omega
      have links := laid.created.links
      rw [difference] at links
      have inside : k + 1 < createdCount (scheme.getBucketSizeInBytesByIndex i)
          (w'.allocs a).bucketSizeInBytes := by
        have enough : k + 1 + 1 ≤ (w'.allocs a).bucketSizeInBytes /
            scheme.getBucketSizeInBytesByIndex i := by
          rw [Nat.le_div_iff_mul_le (by omega), Nat.succ_mul (k + 1)]
          exact fits
        exact Nat.lt_of_lt_of_le enough (Nat.le_max_right _ _)
      have link := links k (by omega)
      rw [createdLink, if_pos inside, linksAt] at link
      rw [World.createdOffset, link, UInt32.toNat_ofNat', Nat.mod_eq_of_lt (by omega)]

/-- In a bucket of at most four gigabytes all functions store exact offsets. -/
theorem init_storesExactly (scheme : Partitioning) (fresh : (w.allocs a).bucketsCount = 0)
    (atLeast : 1 ≤ _bucketsCount) (size : _bucketSizeInBytes ≤ 2 ^ 32)
    (bound : i < min _bucketsCount maxBucketCount) :
    StoresExactly scheme (Allocator.init scheme w a _bucketsCount _bucketSizeInBytes) a i := by
  have routed := init_routed scheme _bucketSizeInBytes fresh atLeast
  have pages := align_pages _bucketSizeInBytes (by omega)
  have small : ((Allocator.init scheme w a _bucketsCount _bucketSizeInBytes).allocs
      a).bucketSizeInBytes ≤ 2 ^ 32 := by
    rw [routed.bucketSizeInBytes, pages]
    unfold pagesOf
    omega
  have positive : 16 ≤ scheme.getBucketSizeInBytesByIndex i :=
    scheme.size_pos (Nat.lt_of_lt_of_le bound (Nat.min_le_right _ _))
  constructor
  · intro k fits
    by_cases empty : _bucketSizeInBytes = 0
    · have zero : align 0 kMaxValidAlignment = 0 := by decide
      rw [routed.bucketSizeInBytes, empty, zero] at fits
      omega
    · have arguments : InitArguments _bucketsCount _bucketSizeInBytes := ⟨atLeast, by omega, size⟩
      have init := init_spec (a := a) (w := w) scheme arguments fresh
      rw [init.createdOffset small bound fits]
  · intro p block m pTail data
    rw [PoolBucket.freeInterval_head, data]
    exact block.decodes positive small
  · intro p block v t useCacheL0 attached opened
    rw [releaseToCache_pushed attached opened]
    exact block.decodes positive small
  · intro ps blocks nodup v t count attached data stack nonzero
    exact returnL1CacheToMaster_decodes positive small blocks nodup attached data stack nonzero
  · exact init_simple scheme fresh atLeast size bound

theorem first_size (scheme : Partitioning) : scheme.getBucketSizeInBytesByIndex 0 = 16 := by
  cases scheme <;> rfl

/-- In a larger bucket the block behind the first four gigabytes is taken for the first. -/
theorem not_storesExactly (large : 2 ^ 32 + 16 ≤ (w.allocs a).bucketSizeInBytes) :
    ¬ StoresExactly scheme w a 0 := by
  intro stores
  have size := first_size scheme
  have block : w.HasBlock scheme a 0 ((w.bucket a 0).pData + 2 ^ 32) := by
    refine ⟨2 ^ 28, ?_, ?_⟩
    · rw [size]
      norm_num
    · rw [size]
      exact large
  have back := stores.freeInterval _ block w.toMachine 0 rfl
  have distance : sizeSub ((w.bucket a 0).pData + 2 ^ 32) (w.bucket a 0).pData = 2 ^ 32 := by
    unfold sizeSub
    omega
  have wrapped : (UInt32.ofNat (2 ^ 32)).toNat = 0 := by decide
  rw [PoolBucket.freeInterval_head] at back
  change (w.bucket a 0).pData + (UInt32.ofNat (sizeSub ((w.bucket a 0).pData + 2 ^ 32)
    (w.bucket a 0).pData)).toNat = _ at back
  rw [distance, wrapped] at back
  omega

/-- `Init` asks for the right number of bytes unless `Align` wraps around. -/
theorem init_event (scheme : Partitioning) (_bucketSizeInBytes : Nat)
    (fresh : (w.allocs a).bucketsCount = 0) (positive : 0 < _bucketsCount) :
    ∃ q, (Allocator.init scheme w a _bucketsCount _bucketSizeInBytes).heap.events =
      .alloc (requestedBytes _bucketsCount _bucketSizeInBytes) kMaxValidAlignment q ::
        w.heap.events := by
  have routed := init_routed scheme _bucketSizeInBytes fresh positive
  rw [routed.heap]
  exact ⟨_, rfl⟩

/-- The addresses of a pool are exact exactly if a bucket is at most four gigabytes large. -/
theorem init_exactAddresses_iff (scheme : Partitioning) (fresh : (w.allocs a).bucketsCount = 0)
    (positive : 1 ≤ _bucketsCount) (most : _bucketsCount ≤ maxBucketCount)
    (sizeBound : _bucketSizeInBytes < 2 ^ 64) :
    ExactAddresses scheme _bucketsCount _bucketSizeInBytes w
        (Allocator.init scheme w a _bucketsCount _bucketSizeInBytes) a <->
      _bucketSizeInBytes ≤ 2 ^ 32 := by
  have valid : ValidAlignment kMaxValidAlignment := ⟨12, by decide, rfl⟩
  have routed := init_routed scheme _bucketSizeInBytes fresh positive
  have count : min _bucketsCount maxBucketCount = _bucketsCount := Nat.min_eq_left most
  rcases init_event scheme _bucketSizeInBytes fresh positive with ⟨q, asked⟩
  constructor
  · intro precise
    by_contra large
    by_cases wraps : 2 ^ 64 < _bucketSizeInBytes + kMaxValidAlignment
    · rcases precise.bytes with ⟨q', should⟩
      rw [asked] at should
      have bytes := (HeapEvent.alloc.inj (List.cons.inj should).1).1
      have pages : 0 < pagesOf _bucketSizeInBytes := by
        unfold pagesOf
        omega
      have product := Nat.mul_pos (Nat.lt_of_lt_of_le Nat.zero_lt_one positive) pages
      rw [requestedBytes, align_of_wrap valid sizeBound wraps, Nat.zero_mul, Nat.zero_mod] at bytes
      omega
    · have size := routed.bucketSizeInBytes
      rw [align_pages _ (by unfold kMaxValidAlignment at wraps; omega)] at size
      have first := precise.buckets 0 (by rw [routed.bucketsCount, count]; exact positive)
      apply not_storesExactly _ first
      rw [size]
      unfold pagesOf
      omega
  · intro small
    refine ⟨⟨q, ?_⟩, fun i bound => ?_⟩
    · have pages := align_pages _bucketSizeInBytes (by omega)
      have pagesSmall : pagesOf _bucketSizeInBytes ≤ 2 ^ 32 := by
        unfold pagesOf
        omega
      have product := Nat.mul_le_mul pagesSmall most
      unfold maxBucketCount at product
      have bytes : requestedBytes _bucketsCount _bucketSizeInBytes =
          _bucketsCount * pagesOf _bucketSizeInBytes := by
        rw [requestedBytes, pages, count, Nat.mul_comm]
        apply Nat.mod_eq_of_lt
        rw [Nat.mul_comm]
        omega
      rw [asked, bytes]
    · rw [routed.bucketsCount] at bound
      exact init_storesExactly scheme fresh positive small bound

theorem init_exactAddresses_onePage :
    ExactAddresses .piecewise 1 4096 (World.initial everyOtherPage)
        (Allocator.init .piecewise (World.initial everyOtherPage) 0 1 4096) 0 <->
      4096 ≤ 2 ^ 32 :=
  init_exactAddresses_iff (w := World.initial everyOtherPage) (a := 0) .piecewise rfl (by decide)
    (by decide) (by decide)

/-- With one bucket of 2 ^ 32 + 1 bytes the block at offset 2 ^ 32 is stored as offset 0. -/
theorem init_inexact_onePage :
    ¬ ExactAddresses .piecewise 1 (2 ^ 32 + 1) (World.initial everyOtherPage)
      (Allocator.init .piecewise (World.initial everyOtherPage) 0 1 (2 ^ 32 + 1)) 0 := by
  intro precise
  have routed := init_routed (w := World.initial everyOtherPage) (a := 0) .piecewise (2 ^ 32 + 1) rfl
    Nat.zero_lt_one
  have size := routed.bucketSizeInBytes
  rw [align_pages _ (by decide)] at size
  apply not_storesExactly _ (precise.buckets 0 (by rw [routed.bucketsCount]; decide))
  rw [size]
  decide

end SmMalloc
