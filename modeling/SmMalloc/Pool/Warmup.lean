import SmMalloc.Pool.CacheSetup
import SmMalloc.Pool.FirstFit
import SmMalloc.Pool.Static

namespace SmMalloc

open Foundation

/-!
# Warming up a thread cache

`Init` takes blocks one by one through `Allocate`, threads them through their
own first eight bytes, and then moves them to level 1.  The blocks in hand are
outside all the while, so everything that `Allocate`, `Free` and
`ReleaseToCache` keep for the clients they keep for the warm-up list too.  An
allocation that spilled to another bucket goes back at once and ends the
filling.
-/

variable {scheme : Partitioning} {pool : Pool scheme} {m m' : Machine} {w : World}
variable {a i t o p : Nat} {bytesCount alignment : Nat} {rest out : List Nat}

/-! ## The warm-up list -/

/-- The blocks in hand, threaded through their own bytes. -/
structure WarmList (pool : Pool scheme) (i : Nat) (mem : Memory) (pRoot : Nat) (hand : List Nat) :
    Prop where
  linked : warmupKind.Linked (fun p => mem.read p 8) pRoot hand
  blocks : forall p, p ∈ hand -> ∃ o, pool.IsBlock i o ∧ p = pool.pData i + o

theorem WarmList.congr {mem mem' : Memory} {pRoot : Nat} {hand : List Nat}
    (warm : WarmList pool i mem pRoot hand)
    (agree : forall p, p ∈ hand -> forall k, k < 8 -> mem' (p + k) = mem (p + k)) :
    WarmList pool i mem' pRoot hand where
  linked := warm.linked.congr (fun p member => Memory.read_congr (agree p member))
  blocks := warm.blocks

/-- The links of blocks that are outside survive what is done to free blocks. -/
theorem WarmList.confined {pRoot : Nat} {hand : List Nat} (bound : i < pool.bucketsCount)
    (warm : WarmList pool i m.mem pRoot hand)
    (confined : Confined pool a t (hand ++ out) m m') : WarmList pool i m'.mem pRoot hand := by
  apply warm.congr
  intro p member k small
  by_contra changed
  rcases warm.blocks p member with ⟨o, block, rfl⟩
  have positive := Pool.element_pos bound
  have listed : o ∈ pool.offsets (hand ++ out) i :=
    Pool.mem_offsets.mpr ⟨_, List.mem_append_left out member, Pool.findBucket_block bound block,
      by omega⟩
  exact block.not_free bound listed (by omega) (by omega) (confined.mem _ changed)

/-- A new block at the root of the list. -/
theorem WarmList.cons {mem : Memory} {pRoot : Nat} {hand : List Nat}
    (warm : WarmList pool i mem pRoot hand) (bound : i < pool.bucketsCount)
    (block : pool.IsBlock i o) (fresh : pool.pData i + o ∉ hand) (small : pRoot < 2 ^ 64) :
    WarmList pool i (mem.write (pool.pData i + o) 8 pRoot) (pool.pData i + o)
      ((pool.pData i + o) :: hand) where
  linked := by
    have readable := pool.pData_readable i
    refine ⟨?_, rfl, ?_⟩
    · change pool.pData i + o ≠ 0
      omega
    · simp only [Memory.read_write_same, Nat.mod_eq_of_lt (a := pRoot) (b := 256 ^ 8) small]
      apply warm.linked.congr
      intro p member
      rcases warm.blocks p member with ⟨o', block', rfl⟩
      have different : o ≠ o' := by
        rintro rfl
        exact fresh member
      have apart := block.apart block' different
      have positive := Pool.element_pos bound
      exact Memory.read_write_apart (by omega)
  blocks := by
    intro p member
    rcases List.mem_cons.mp member with rfl | old
    · exact ⟨o, block, rfl⟩
    · exact warm.blocks p old

/-- The blocks in hand all count for bucket `i`. -/
theorem WarmList.offsets_length (bound : i < pool.bucketsCount) : forall {hand : List Nat},
    (forall p, p ∈ hand -> ∃ o, pool.IsBlock i o ∧ p = pool.pData i + o) ->
    (pool.offsets hand i).length = hand.length := by
  intro hand
  induction hand with
  | nil => exact fun _ => rfl
  | cons p hand ih =>
      intro blocks
      rcases blocks p List.mem_cons_self with ⟨o, block, rfl⟩
      rw [Pool.offsets_cons_block bound block, List.length_cons, List.length_cons,
        ih (fun q member => blocks q (List.mem_cons_of_mem _ member))]

/-! ## Requests of the warm-up -/

theorem validDefault : ValidAlignment kDefaultTlsCacheAlignment := ⟨2, by decide, rfl⟩

theorem align_size (sized : scheme.Sized) (bound : i < maxBucketCount)
    (valid : ValidAlignment alignment)
    (divides : alignment ∣ scheme.getBucketSizeInBytesByIndex i) :
    align (scheme.getBucketSizeInBytesByIndex i) alignment =
      scheme.getBucketSizeInBytesByIndex i := by
  have small := sized.size_le i bound
  have positive := sized.size_pos i bound
  have alignmentLe := Nat.le_of_dvd (by omega) divides
  rw [align_eq_roundUp valid (by omega) (by omega)]
  exact roundUp_of_dvd (by omega) divides

/-- The size of a class is a request for that very class. -/
theorem requestIndex_size (sized : scheme.Sized) (bound : i < maxBucketCount)
    (valid : ValidAlignment alignment)
    (divides : alignment ∣ scheme.getBucketSizeInBytesByIndex i) :
    requestIndex scheme (scheme.getBucketSizeInBytesByIndex i) alignment = i := by
  rw [requestIndex, align_size sized bound valid divides, sized.index_size i bound]

theorem classChecked_size (sized : scheme.Sized) (bound : i < maxBucketCount) :
    ClassChecked scheme (scheme.getBucketSizeInBytesByIndex i) kDefaultTlsCacheAlignment := by
  have small := sized.size_le i bound
  have positive := sized.size_pos i bound
  intro w
  rw [align_size sized bound validDefault (sized.size_dvd i bound)]
  unfold World.checkBucketIndexBySize
  cases scheme
  · rfl
  · exact World.check_true w (decide_eq_true (by omega))
  · exact World.check_true w (decide_eq_true (by omega))

/-- `GetBucketIndex` agrees with the division of `FindBucket`. -/
theorem Pool.Represents.getBucketIndex {alloc : Allocator} (represents : pool.Represents alloc)
    (addressable : p < 2 ^ 64) (bound : i < pool.bucketsCount) :
    alloc.getBucketIndex p = i <-> pool.findBucket p = i := by
  unfold Allocator.getBucketIndex
  rw [represents.findBucket, represents.bucketsCount]
  constructor
  · intro index
    split at index
    next => omega
    next =>
      simp only at index
      split at index
      next => omega
      next => exact Int.ofNat.inj index
  · intro found
    have inside := Pool.inside_of_findBucket addressable bound found
    have base := pool.base_le_pData i
    have top := Pool.bucket_end_le bound
    have mine : alloc.isMyAlloc p ≠ false := by
      rw [Allocator.isMyAlloc, represents.pBuffer, represents.pBufferEnd, ne_eq,
        Bool.not_eq_false, Bool.and_eq_true, decide_eq_true_iff, decide_eq_true_iff]
      omega
    rw [if_neg mine, found]
    simp only [if_neg (Nat.not_le_of_lt bound)]

/-- The lists of a pool are fit for the search of `Allocate`. -/
theorem PoolInv.searchable_of (inv : PoolInv pool a m out) {bytesCount alignment : Nat}
    (cached : CacheServes scheme m a t bytesCount alignment ->
      (m.tls t (requestIndex scheme bytesCount alignment)).pBucketData ≠ 0) :
    Searchable scheme m a t bytesCount alignment where
  count_le := inv.represents.bucketsCount ▸ pool.count_le
  pData := by
    intro i bound
    rw [inv.represents.bucketsCount] at bound
    have readable := pool.pData_readable i
    rw [Machine.bucket, inv.represents.pData i bound]
    omega
  pBucketData := cached

/-- So are the caches of a thread that is ready. -/
theorem PoolInv.searchable (inv : PoolInv pool a w.toMachine out) (ready : w.Ready a t)
    (bytesCount alignment : Nat) : Searchable scheme w.toMachine a t bytesCount alignment :=
  inv.searchable_of (fun serves => inv.data_ne_zero ((ready.usable _).resolve_right serves.2))

/-- A request of the warm-up of bucket `i` has popped block `o` of bucket `j`. -/
structure WarmPopped (pool : Pool scheme) (a i j o : Nat) (m : Machine) (p : Nat) (m' : Machine) :
    Prop where
  above : i ≤ j
  below : j < i + 4
  bound : j < pool.bucketsCount
  block : pool.IsBlock j o
  drained : j ≠ i -> (m.bucket a i).head = TaggedIndex.invalid
  nonempty : (m.bucket a j).head ≠ TaggedIndex.invalid
  address : p = pool.pData j + o
  machine : ∃ b, m' = m.setBucket a j b

/-- With nothing in the cache bucket, a request of the warm-up pops a block, or
finds the bucket drained and asks the fallback heap. -/
theorem PoolInv.warmRequest (inv : PoolInv pool a w.toMachine out) (ready : w.Ready a t)
    (bound : i < pool.bucketsCount) (empty : (w.tls t i).getElementsCount = 0) :
    let size := scheme.getBucketSizeInBytesByIndex i
    let after := Allocator.allocate scheme false w a t size kDefaultTlsCacheAlignment
    (∃ j o, WarmPopped pool a i j o w.toMachine after.1 after.2.toMachine) ∨
      ((w.bucket a i).head = TaggedIndex.invalid ∧
        after.1 = w.heap.answer size kDefaultTlsCacheAlignment ∧
        after.2.toMachine =
          { w.toMachine with heap := (w.heap.alloc size kDefaultTlsCacheAlignment).2 }) := by
  intro size after
  have small := Nat.lt_of_lt_of_le bound pool.count_le
  have sizePos := pool.sized.size_pos i small
  have sizeLe := pool.sized.size_le i small
  have count := inv.represents.bucketsCount
  have index : requestIndex scheme size kDefaultTlsCacheAlignment = i :=
    requestIndex_size pool.sized small validDefault (pool.sized.size_dvd i small)
  have positive : 0 < size := by omega
  have limit : size ≤ scheme.requestLimit := by
    unfold Partitioning.requestLimit
    split <;> omega
  have found := allocate_found (w := w) (a := a) (t := t) false positive limit validDefault
    (inv.searchable ready size kDefaultTlsCacheAlignment)
  have misses : ¬ CacheServes scheme w.toMachine a t size kDefaultTlsCacheAlignment := by
    intro serves
    have nonempty := serves.2
    rw [index] at nonempty
    exact nonempty empty
  -- bucket `i` itself is eligible as long as it has a block
  have itself : (w.bucket a i).head ≠ TaggedIndex.invalid ->
      Eligible scheme w.toMachine a kDefaultTlsCacheAlignment
        (requestIndex scheme size kDefaultTlsCacheAlignment)
        (searchEnd scheme w.toMachine a size kDefaultTlsCacheAlignment) i := by
    intro nonempty
    refine ⟨Nat.le_of_eq index, ?_, pool.sized.size_dvd i small, nonempty⟩
    rw [searchEnd, index, count]
    omega
  change Found scheme w.toMachine a t size kDefaultTlsCacheAlignment after.1 after.2.toMachine
    at found
  by_cases some : ∃ j, Eligible scheme w.toMachine a kDefaultTlsCacheAlignment
      (requestIndex scheme size kDefaultTlsCacheAlignment)
      (searchEnd scheme w.toMachine a size kDefaultTlsCacheAlignment) j
  · left
    generalize after.1 = p, after.2.toMachine = m' at found ⊢
    cases found with
    | cached serves _ => exact absurd serves misses
    | generic _ none =>
        rcases some with ⟨j, eligible⟩
        exact absurd eligible (none j)
    | popped j _ first taken =>
        have eligible := first.eligible
        have above : i ≤ j := index ▸ eligible.above
        have below : j < i + 4 := index ▸ Nat.lt_of_lt_of_le eligible.below (Nat.min_le_left _ _)
        have bound' : j < pool.bucketsCount :=
          count ▸ Nat.lt_of_lt_of_le eligible.below (Nat.min_le_right _ _)
        have data : (w.bucket a j).pData = pool.pData j := inv.represents.pData j bound'
        rcases inv.buckets j bound' with ⟨central, bucket⟩
        rcases bucket.linked.uncons eligible.nonempty with ⟨tail, list, -⟩
        refine ⟨j, _, above, below, bound', bucket.isBlock_central (list ▸ List.mem_cons_self), ?_,
          eligible.nonempty, taken.head.trans (congrArg (· + _) data), _, taken.machine⟩
        intro other
        by_contra nonempty
        have least := first.least i (itself nonempty)
        omega
  · right
    refine ⟨by_contra (fun nonempty => some ⟨i, itself nonempty⟩), ?_⟩
    exact found.of_none misses (fun j eligible => some ⟨j, eligible⟩)

/-- A thread whose cache bucket is closed hands a block straight to the central list. -/
theorem PoolInv.free_closed (inv : PoolInv pool a w.toMachine out) (bound : i < pool.bucketsCount)
    (block : pool.IsBlock i o) (closed : (w.tls t i).maxElementsCount = 0) :
    (Allocator.free w a t (pool.pData i + o)).toMachine =
        PoolBucket.freeInterval w.toMachine a i (pool.pData i + o) (pool.pData i + o) ∧
      (Allocator.free w a t (pool.pData i + o)).faults = w.faults := by
  rcases inv.free_block_eq bound block (t := t) with
    ⟨counted, sameMachine, -, sameFaults, opened⟩
  have refused : Allocator.releaseToCache true counted t i (pool.pData i + o) =
      (false, counted) := by
    rw [Allocator.releaseToCache, sameMachine]
    exact if_pos closed
  rw [opened, refused, ← sameMachine, ← sameFaults]
  exact ⟨rfl, rfl⟩

/-! ## Filling -/

/-- What the warm-up of bucket `i` by thread `t` has done so far. -/
structure Warming (pool : Pool scheme) (a t i : Nat) (rest out : List Nat) (w w' : World)
    (pRoot : Nat) (hand : List Nat) : Prop where
  sound : Sound pool a rest w'.toMachine (hand ++ out)
  warm : WarmList pool i w'.mem pRoot hand
  confined : Confined pool a t out w.toMachine w'.toMachine
  live : w'.heap.live = w.heap.live
  failed : w'.failed = w.failed

/-- The filling loop leaves all cache buckets alone. -/
structure Filling (pool : Pool scheme) (a t i : Nat) (rest out : List Nat) (w w' : World)
    (pRoot : Nat) (hand : List Nat) : Prop extends
    Warming pool a t i rest out w w' pRoot hand where
  tls : w'.tls = w.tls
  faults : w'.faults = w.faults

theorem Confined.of_append {hand : List Nat} (confined : Confined pool a t (hand ++ out) m m') :
    Confined pool a t out m m' := by
  apply confined.mono
  intro j o member
  rcases Pool.mem_offsets.mp member with ⟨q, inOut, found, named⟩
  exact Pool.mem_offsets.mpr ⟨q, List.mem_append_right hand inOut, found, named⟩

/-- The root of a warm-up list is an address. -/
theorem WarmList.root_lt {mem : Memory} {pRoot : Nat} {hand : List Nat}
    (warm : WarmList pool i mem pRoot hand) (bound : i < pool.bucketsCount) :
    pRoot < 2 ^ 64 := by
  cases hand with
  | nil =>
      have zero : pRoot = 0 := warm.linked
      omega
  | cons p hand =>
      have same : pRoot = p := warm.linked.2.1
      rcases warm.blocks p List.mem_cons_self with ⟨o, block, address⟩
      rw [same, address]
      exact (Sound.block_address bound block).2

/-- A request of the warm-up has left everything but lists and the fallback heap alone. -/
structure Requested (pool : Pool scheme) (a t : Nat) (out : List Nat) (w w' : World) : Prop where
  confined : Confined pool a t out w.toMachine w'.toMachine
  mem : w'.mem = w.mem
  tls : w'.tls = w.tls
  failed : w'.failed = w.failed
  faults : w'.faults = w.faults
  tally : w'.tally a = w.tally a

/-- Nothing has been counted, and the lists of the other buckets are as they were. -/
structure Quiet (a i : Nat) (w w' : World) : Prop where
  tally : w'.tally a = w.tally a
  heads : forall j, j ≠ i -> (w'.bucket a j).head = (w.bucket a j).head

theorem Quiet.refl (a i : Nat) (w : World) : Quiet a i w w := ⟨rfl, fun _ _ => rfl⟩

theorem Quiet.trans {first middle last : World} (before : Quiet a i first middle)
    (after : Quiet a i middle last) : Quiet a i first last where
  tally := after.tally.trans before.tally
  heads := fun j other => (after.heads j other).trans (before.heads j other)

/-- The next request of the warm-up finds its own bucket drained, but not all of
the next three. -/
def Spills (pool : Pool scheme) (a i : Nat) (m : Machine) : Prop :=
  (m.bucket a i).head = TaggedIndex.invalid ∧ ∃ j, i < j ∧ j < i + 4 ∧ j < pool.bucketsCount ∧
    (m.bucket a j).head ≠ TaggedIndex.invalid

namespace Filling

variable {w' after : World} {pRoot j : Nat} {hand : List Nat}

/-- The list of blocks in hand grows by a block that has just been taken. -/
theorem push (filling : Filling pool a t i rest out w w' pRoot hand) (bound : i < pool.bucketsCount)
    (block : pool.IsBlock i o)
    (sound : Sound pool a rest after.toMachine ((pool.pData i + o) :: (hand ++ out)))
    (requested : Requested pool a t out w' after) (heap : after.heap = w'.heap) :
    Filling pool a t i rest out w
      { after with mem := after.mem.write (pool.pData i + o) 8 pRoot } (pool.pData i + o)
      ((pool.pData i + o) :: hand) := by
  have positive := Pool.element_pos bound
  have fresh := sound.fresh
  have inside : forall x, after.mem.write (pool.pData i + o) 8 pRoot x ≠ after.mem x ->
      pool.pData i + o ≤ x ∧ x < pool.pData i + o + pool.elementSize i := by
    intro x changed
    by_contra outside
    exact changed (Memory.write_outside (by omega))
  have freshOffset : o ∉ pool.offsets (hand ++ out) i := sound.inv.fresh_offset bound block
  have warm := filling.warm
  rw [← requested.mem] at warm
  refine ⟨⟨?_, ?_, ?_, ?_, ?_⟩, ?_, ?_⟩
  · apply sound.write
    intro x changed
    have hit := inside x changed
    refine Or.inr ⟨i, o, bound, ?_, hit.1, hit.2⟩
    rw [Pool.offsets_cons_block bound block]
    exact List.mem_cons_self
  · exact warm.cons bound block (fun member => fresh (List.mem_append_left out member))
      (filling.warm.root_lt bound)
  · apply (filling.confined.trans requested.confined).trans
    refine ⟨fun _ _ => rfl, fun _ _ => rfl, fun x changed => ?_⟩
    have hit := inside x changed
    refine ⟨i, o, bound, block, fun member => freshOffset ?_, hit.1, hit.2⟩
    rw [Pool.offsets_append]
    exact List.mem_append_right _ member
  · exact (congrArg GenericAllocator.live heap).trans filling.live
  · exact requested.failed.trans filling.failed
  · exact requested.tls.trans filling.tls
  · exact requested.faults.trans filling.faults

/-- A block of another bucket goes back to its list. -/
theorem spill (filling : Filling pool a t i rest out w w' pRoot hand) (bound : i < pool.bucketsCount)
    (bound' : j < pool.bucketsCount) (other : j ≠ i) (block : pool.IsBlock j o)
    (closed : (w.tls t j).maxElementsCount = 0)
    (sound : Sound pool a rest after.toMachine ((pool.pData j + o) :: (hand ++ out)))
    (requested : Requested pool a t out w' after) (heap : after.heap = w'.heap) :
    Filling pool a t i rest out w (Allocator.free after a t (pool.pData j + o)) pRoot hand ∧
      ((Allocator.free after a t (pool.pData j + o)).bucket a i).head =
        (after.bucket a i).head := by
  have tls := requested.tls.trans filling.tls
  rcases sound.inv.free_closed bound' block (by rw [tls]; exact closed) with ⟨back, backFaults⟩
  rcases sound.free t with ⟨freed, confined, -, failed⟩
  have warm := filling.warm
  rw [← requested.mem] at warm
  refine ⟨⟨⟨freed, warm.confined bound confined,
    (filling.confined.trans requested.confined).trans confined.of_append, ?_,
    failed.trans (requested.failed.trans filling.failed)⟩, ?_,
    backFaults.trans (requested.faults.trans filling.faults)⟩, ?_⟩
  · rw [back]
    exact (congrArg GenericAllocator.live heap).trans filling.live
  · rw [back]
    exact tls
  · have different : ¬ (a = a ∧ i = j) := fun same => other same.2.symm
    rw [back, PoolBucket.freeInterval, Machine.setBucket_bucket_of_ne _ _ _ _ different]
    rfl

/-- A block of the fallback heap goes back to the heap. -/
theorem foreign (filling : Filling pool a t i rest out w w' pRoot hand)
    (elsewhere : pool.bucketsCount ≤ pool.findBucket p)
    (sound : Sound pool a rest after.toMachine (p :: (hand ++ out)))
    (requested : Requested pool a t out w' after)
    (live : (after.heap.free p).live = w'.heap.live) :
    Filling pool a t i rest out w { after with heap := after.heap.free p } pRoot hand := by
  have warm := filling.warm
  rw [← requested.mem] at warm
  have freed : Confined pool a t out after.toMachine
      { after.toMachine with heap := after.heap.free p } :=
    Confined.of_mem_eq (fun _ _ => rfl) (fun _ _ => rfl) rfl
  exact ⟨⟨sound.heap_free elsewhere, warm, (filling.confined.trans requested.confined).trans freed,
    live.trans filling.live, requested.failed.trans filling.failed⟩,
    requested.tls.trans filling.tls, requested.faults.trans filling.faults⟩

/-- No block at all: the heap has refused. -/
theorem unserved (filling : Filling pool a t i rest out w w' pRoot hand)
    (sound : Sound pool a rest after.toMachine (hand ++ out))
    (requested : Requested pool a t out w' after) (live : after.heap.live = w'.heap.live) :
    Filling pool a t i rest out w after pRoot hand := by
  have warm := filling.warm
  rw [← requested.mem] at warm
  exact ⟨⟨sound, warm, filling.confined.trans requested.confined, live.trans filling.live,
    requested.failed.trans filling.failed⟩, requested.tls.trans filling.tls,
    requested.faults.trans filling.faults⟩

/-- A round of the filling loop either ends it, with bucket `i` drained, or
takes one more block.  It is quiet unless it spills. -/
inductive Round (pool : Pool scheme) (a t i : Nat) (rest out : List Nat) (w w' : World)
    (remaining : Nat) (hand : List Nat) (filled : Nat × World) : Prop
  | ends (filling : Filling pool a t i rest out w filled.2 filled.1 hand)
      (drained : (filled.2.bucket a i).head = TaggedIndex.invalid)
      (quiet : Quiet a i w' filled.2 ∨ Spills pool a i w'.toMachine)
  | takes (p : Nat) (next : World) (filling : Filling pool a t i rest out w next p (p :: hand))
      (quiet : Quiet a i w' next)
      (continued : filled = TlsPoolBucket.warmupFill scheme a t i remaining p next)

/-- What the loop does with the answer to its request. -/
theorem fill_opened {after : Nat × World} {remaining : Nat}
    (isAfter : after = Allocator.allocate scheme false w' a t
      (scheme.getBucketSizeInBytesByIndex i) kDefaultTlsCacheAlignment) :
    TlsPoolBucket.warmupFill scheme a t i (remaining + 1) pRoot w' =
      if after.1 = 0 then (pRoot, after.2)
      else if (after.2.allocs a).getBucketIndex after.1 ≠ i then
        (pRoot, Allocator.free after.2 a t after.1)
      else TlsPoolBucket.warmupFill scheme a t i remaining after.1
        { after.2 with mem := after.2.mem.write after.1 8 pRoot } := by
  rw [isAfter]
  rfl

/-- The request has popped a block: it is taken if it is one of bucket `i`,
and it goes back to its list otherwise. -/
theorem round_popped {after : Nat × World} (remaining : Nat)
    (filling : Filling pool a t i rest out w w' pRoot hand) (bound : i < pool.bucketsCount)
    (closed : forall j, i < j -> (w.tls t j).maxElementsCount = 0)
    (isAfter : after = Allocator.allocate scheme false w' a t
      (scheme.getBucketSizeInBytesByIndex i) kDefaultTlsCacheAlignment)
    (requested : Requested pool a t out w' after.2)
    (sound : Sound pool a rest after.2.toMachine (after.1 :: (hand ++ out)))
    (popped : WarmPopped pool a i j o w'.toMachine after.1 after.2.toMachine) :
    Round pool a t i rest out w w' remaining hand
      (TlsPoolBucket.warmupFill scheme a t i (remaining + 1) pRoot w') := by
  rcases popped.machine with ⟨b, machine⟩
  have heap : after.2.heap = w'.heap := by rw [machine]; rfl
  have address := popped.address
  have nonzero : after.1 ≠ 0 := by
    rw [address]
    exact pool.block_ne_zero j o
  have index := sound.inv.represents.getBucketIndex
    (sound.addresses after.1 List.mem_cons_self).2 bound
  rw [address, Pool.findBucket_block popped.bound popped.block] at index
  rw [fill_opened isAfter, if_neg nonzero, address]
  rw [address] at sound
  by_cases own : j = i
  · subst own
    rw [if_neg (fun other => other (index.mpr rfl))]
    refine Round.takes _ _ (filling.push bound popped.block sound requested heap) ?_ rfl
    refine ⟨requested.tally, fun k other => ?_⟩
    change (after.2.bucket a k).head = _
    rw [machine, Machine.setBucket_bucket_of_ne _ _ _ _ (fun same => other same.2)]
  · rw [if_pos (fun same => own (index.mp same))]
    have above : i < j := Nat.lt_of_le_of_ne popped.above (fun same => own same.symm)
    have drained := popped.drained own
    rcases filling.spill bound popped.bound own popped.block (closed j above) sound requested heap
      with ⟨ended, head⟩
    refine Round.ends ended ?_
      (Or.inr ⟨drained, j, above, popped.below, popped.bound, popped.nonempty⟩)
    -- neither the pop nor the return of the other block touches bucket `i`
    change ((Allocator.free after.2 a t (pool.pData j + o)).bucket a i).head = _
    rw [head, machine, Machine.setBucket_bucket_of_ne _ _ _ _ (fun same => own same.2.symm)]
    exact drained

/-- The request has gone to the fallback heap: its answer goes back there. -/
theorem round_generic {after : Nat × World} (remaining : Nat)
    (filling : Filling pool a t i rest out w w' pRoot hand) (bound : i < pool.bucketsCount)
    (isAfter : after = Allocator.allocate scheme false w' a t
      (scheme.getBucketSizeInBytesByIndex i) kDefaultTlsCacheAlignment)
    (requested : Requested pool a t out w' after.2)
    (allocated : Allocated pool a t (scheme.getBucketSizeInBytesByIndex i)
      kDefaultTlsCacheAlignment (hand ++ out) w'.toMachine after.1 after.2.toMachine)
    (drained : (w'.bucket a i).head = TaggedIndex.invalid)
    (answer : after.1 =
      w'.heap.answer (scheme.getBucketSizeInBytesByIndex i) kDefaultTlsCacheAlignment)
    (machine : after.2.toMachine = { w'.toMachine with
      heap := (w'.heap.alloc (scheme.getBucketSizeInBytesByIndex i)
        kDefaultTlsCacheAlignment).2 }) :
    Round pool a t i rest out w w' remaining hand
      (TlsPoolBucket.warmupFill scheme a t i (remaining + 1) pRoot w') := by
  have sizePos := pool.sized.size_pos i (Nat.lt_of_lt_of_le bound pool.count_le)
  have head : (after.2.bucket a i).head = TaggedIndex.invalid := by rw [machine]; exact drained
  have quiet : Quiet a i w' after.2 := ⟨requested.tally, fun j _ => by rw [machine]; rfl⟩
  rw [fill_opened isAfter]
  by_cases refused : after.1 = 0
  · rw [if_pos refused]
    rw [refused] at allocated
    have live : after.2.heap.live = w'.heap.live := by
      rw [machine]
      exact GenericAllocator.alloc_live_refused (answer.symm.trans refused)
    exact Round.ends (filling.unserved (filling.sound.refused (by omega) allocated) requested live)
      head (Or.inl quiet)
  · have sound := filling.sound.allocated (by omega) allocated refused
    have elsewhere : pool.bucketsCount ≤ pool.findBucket after.1 := by
      rw [answer]
      exact filling.sound.inv.answer_elsewhere (by omega)
    have address := sound.addresses after.1 List.mem_cons_self
    have index := sound.inv.represents.getBucketIndex address.2 bound
    have other : ¬ pool.findBucket after.1 = i := by omega
    rw [if_neg refused, if_pos (fun same => other (index.mp same)),
      sound.inv.free_generic address.1 elsewhere]
    have live : (after.2.heap.free after.1).live = w'.heap.live := by
      rw [machine, answer, GenericAllocator.free_alloc_live (answer ▸ refused)]
    exact Round.ends (filling.foreign elsewhere sound requested live) head
      (Or.inl ⟨quiet.tally, quiet.heads⟩)

/-- Every round of the filling loop is one of these. -/
theorem round (filling : Filling pool a t i rest out w w' pRoot hand)
    (bound : i < pool.bucketsCount) (empty : (w.tls t i).getElementsCount = 0)
    (closed : forall j, i < j -> (w.tls t j).maxElementsCount = 0) (remaining : Nat) :
    Round pool a t i rest out w w' remaining hand
      (TlsPoolBucket.warmupFill scheme a t i (remaining + 1) pRoot w') := by
  have small := Nat.lt_of_lt_of_le bound pool.count_le
  have sizePos := pool.sized.size_pos i small
  have nonempty : scheme.getBucketSizeInBytesByIndex i ≠ 0 := by omega
  have ready := filling.sound.ready t
  have request := filling.sound.inv.warmRequest ready bound (by rw [filling.tls]; exact empty)
  obtain ⟨after, isAfter⟩ : ∃ after, after = Allocator.allocate scheme false w' a t
    (scheme.getBucketSizeInBytesByIndex i) kDefaultTlsCacheAlignment := ⟨_, rfl⟩
  have allocated := filling.sound.inv.allocate false (t := t) validDefault nonempty
    (fun _ => ready.usable _)
  rw [classChecked_size pool.sized small w'] at allocated
  simp only [← isAfter] at allocated request
  rcases allocated with ⟨allocated, failed⟩
  have requested : after.2.tls = w'.tls -> Requested pool a t out w' after.2 := by
    intro tls
    refine ⟨allocated.confined.1.of_append, allocated.confined.2, tls, failed, ?_, ?_⟩
    · rw [isAfter]
      exact World.allocate_faults false w'
    · rw [isAfter]
      exact World.allocate_uncounted w'
  rcases request with ⟨j, o, popped⟩ | ⟨drained, answer, machine⟩
  · rcases popped.machine with ⟨b, machine⟩
    have nonzero : after.1 ≠ 0 := by
      rw [popped.address]
      exact pool.block_ne_zero j o
    exact filling.round_popped remaining bound closed isAfter (requested (by rw [machine]; rfl))
      (filling.sound.allocated (by omega) allocated nonzero) popped
  · exact filling.round_generic remaining bound isAfter (requested (by rw [machine])) allocated
      drained answer machine

/-- The blocks in hand are the ones that the central list has lost. -/
theorem central_length (filling : Filling pool a t i rest out w w' pRoot hand)
    (bound : i < pool.bucketsCount) {central central' : List Nat}
    (before : BucketInv pool w.toMachine a i central (pool.offsets out i))
    (after : BucketInv pool w'.toMachine a i central' (pool.offsets (hand ++ out) i)) :
    central.length = central'.length + hand.length := by
  have perm := before.custody.pair_perm after.custody
    (show Holder.central ≠ Holder.client by intro h; cases h) (by
      intro other notCentral notClient
      cases other with
      | central => exact absurd rfl notCentral
      | cache u => exact cached_congr (congrFun (congrFun filling.tls u) i)
      | client => exact absurd rfl notClient)
  change (central' ++ pool.offsets (hand ++ out) i).Perm (central ++ pool.offsets out i) at perm
  have inHand := WarmList.offsets_length bound filling.warm.blocks
  have lengths := perm.length_eq
  rw [Pool.offsets_append] at lengths
  simp only [List.length_append] at lengths
  omega

end Filling

/-- The warm-up of bucket `i` by `amount` blocks will not spill: there are as many, or
the next three buckets have none. -/
def Unspilled (pool : Pool scheme) (a i : Nat) (out : List Nat) (amount : Nat) (m : Machine) :
    Prop :=
  forall central, BucketInv pool m a i central (pool.offsets out i) -> amount ≤ central.length ∨
    forall j, i < j -> j < i + 4 -> j < pool.bucketsCount ->
      (m.bucket a j).head = TaggedIndex.invalid

/-- Whether a warm-up spills depends only on how long the lists are. -/
theorem Unspilled.congr {amount : Nat} (unspilled : Unspilled pool a i out amount m)
    (heads : forall j, i < j -> (m'.bucket a j).head = (m.bucket a j).head)
    (lengths : forall central', BucketInv pool m' a i central' (pool.offsets out i) ->
      ∃ central, BucketInv pool m a i central (pool.offsets out i) ∧
        central.length = central'.length) : Unspilled pool a i out amount m' := by
  intro central' bucket'
  rcases lengths central' bucket' with ⟨central, bucket, same⟩
  rcases unspilled central bucket with enough | empty
  · exact Or.inl (same ▸ enough)
  · refine Or.inr (fun j above below bound => ?_)
    rw [heads j above]
    exact empty j above below bound

/-- As long as fewer blocks are in hand than were asked for, the next request spills only if
the warm-up does. -/
theorem Filling.unspilled {w' : World} {pRoot num : Nat} {hand : List Nat}
    (filling : Filling pool a t i rest out w w' pRoot hand) (bound : i < pool.bucketsCount)
    (sound : Sound pool a rest w.toMachine out) (quiet : Quiet a i w w')
    (unspilled : Unspilled pool a i out num w.toMachine) (short : hand.length < num) :
    ¬ Spills pool a i w'.toMachine := by
  rintro ⟨drained, j, above, below, inside, nonempty⟩
  rcases sound.inv.buckets i bound with ⟨central, before⟩
  rcases filling.sound.inv.buckets i bound with ⟨central', after⟩
  have none : central' = [] := after.linked.eq_nil_iff.mpr drained
  have length := filling.central_length bound before after
  rw [none, List.length_nil] at length
  rcases unspilled central before with enough | empty
  · omega
  · exact nonempty ((quiet.heads j (by omega)).trans (empty j above below inside))

/-- The filling loop takes as many blocks as it is asked for and the bucket has. -/
theorem warmupFill_spec (sound : Sound pool a rest w.toMachine out) (bound : i < pool.bucketsCount)
    (empty : (w.tls t i).getElementsCount = 0)
    (closed : forall j, i < j -> (w.tls t j).maxElementsCount = 0) :
    forall (remaining pRoot : Nat) (w' : World) (hand : List Nat),
    Filling pool a t i rest out w w' pRoot hand ->
    let filled := TlsPoolBucket.warmupFill scheme a t i remaining pRoot w'
    ∃ hand', Filling pool a t i rest out w filled.2 filled.1 hand' ∧
      hand'.length ≤ hand.length + remaining ∧
      (hand'.length = hand.length + remaining ∨
        (filled.2.bucket a i).head = TaggedIndex.invalid) ∧
      (Quiet a i w w' -> Unspilled pool a i out (hand.length + remaining) w.toMachine ->
        Quiet a i w filled.2) := by
  intro remaining
  induction remaining with
  | zero =>
      intro pRoot w' hand filling
      exact ⟨hand, filling, Nat.le_refl _, Or.inl rfl, fun quiet _ => quiet⟩
  | succ remaining ih =>
      intro pRoot w' hand filling filled
      rcases filling.round bound empty closed remaining with
        ⟨ended, drained, quietOrSpills⟩ | ⟨p, next, longer, quietRound, continued⟩
      · refine ⟨hand, ended, by omega, Or.inr drained, fun quiet unspilled => ?_⟩
        rcases quietOrSpills with quietRound | spills
        · exact quiet.trans quietRound
        · exact absurd spills (filling.unspilled bound sound quiet unspilled (by omega))
      · rcases ih p next (p :: hand) longer with ⟨hand', done, short, full, quietRest⟩
        rw [← continued] at done full quietRest
        have total : (p :: hand).length + remaining = hand.length + (remaining + 1) := by
          rw [List.length_cons]
          omega
        rw [total] at short full quietRest
        exact ⟨hand', done, short, full, fun quiet unspilled =>
          quietRest (quiet.trans quietRound) unspilled⟩

/-! ## Draining -/

/-- The moving loop fills level 1 of the cache bucket, and leaves the others alone. -/
structure Draining (pool : Pool scheme) (a t i : Nat) (rest out : List Nat) (w w' : World)
    (pCurrent : Nat) (hand : List Nat) : Prop extends
    Warming pool a t i rest out w w' pCurrent hand where
  others : forall j, j ≠ i -> w'.tls t j = w.tls t j
  serving : (w'.tls t i).Serving a i
  kept : (w.tls t i).Kept (w'.tls t i)
  level0 : (w'.tls t i).numElementsL0 = (w.tls t i).numElementsL0
  faults : w'.faults = w.faults

theorem Filling.draining {w' : World} {pRoot : Nat} {hand : List Nat}
    (filling : Filling pool a t i rest out w w' pRoot hand) (serving : (w.tls t i).Serving a i) :
    Draining pool a t i rest out w w' pRoot hand where
  toWarming := filling.toWarming
  others := fun j _ => congrFun (congrFun filling.tls t) j
  serving := by rw [filling.tls]; exact serving
  kept := by rw [filling.tls]; exact TlsPoolBucket.Kept.refl _
  level0 := by rw [filling.tls]
  faults := filling.faults

/-- `ReleaseToCache` to level 1, while there is room, is a push. -/
theorem releaseToCache_room (room : (w.tls t i).numElementsL1 < (w.tls t i).maxElementsCount)
    (p : Nat) :
    ∃ checked : World, checked.toMachine = w.toMachine ∧
      Allocator.releaseToCache false w t i p = (true, checked.pushL1 t i
        (UInt32.ofNat (sizeSub p (w.tls t i).pBucketData))) := by
  have opens : ¬ (w.tls t i).maxElementsCount = 0 := by omega
  refine ⟨((w.check .releaseToCacheBucket (w.tls t i).pBucket.isSome).check
    .releaseToCacheBucketData ((w.tls t i).pBucketData ≠ 0)).check .releaseToCacheRange
      (decide ((w.tls t i).pBucketData ≤ p) && decide (p < Allocator.cachedBufferEnd
        ((w.check .releaseToCacheBucket (w.tls t i).pBucket.isSome).check
          .releaseToCacheBucketData ((w.tls t i).pBucketData ≠ 0)) (w.tls t i))),
    by simp, ?_⟩
  have level1 : ¬ (false = true ∧ (w.tls t i).numElementsL0 < maxCacheItemsCount) :=
    fun both => absurd both.1 (by decide)
  simp only [Allocator.releaseToCache, if_neg opens, if_neg level1, if_pos room]

/-- A round of the moving loop moves one block. -/
theorem Draining.round {w' : World} {pCurrent : Nat} {hand : List Nat}
    (draining : Draining pool a t i rest out w w' pCurrent (p :: hand))
    (bound : i < pool.bucketsCount)
    (room : (w'.tls t i).numElementsL1 < (w'.tls t i).maxElementsCount) :
    ∃ pNext next, Draining pool a t i rest out w next pNext hand ∧
      (next.tls t i).numElementsL1 = (w'.tls t i).numElementsL1 + 1 ∧ next.allocs = w'.allocs ∧
      forall rounds, TlsPoolBucket.warmupDrain t i (rounds + 1) pCurrent w' =
        TlsPoolBucket.warmupDrain t i rounds pNext next := by
  have opens : (w'.tls t i).maxElementsCount ≠ 0 := by omega
  rcases draining.warm.linked with ⟨running, same, linked⟩
  have isRoot : pCurrent = p := same
  subst isRoot
  rcases draining.warm.blocks pCurrent List.mem_cons_self with ⟨o, block, address⟩
  have sound := draining.sound
  rw [List.cons_append, address] at sound
  have caching : w'.Caching a i t := sound.caching draining.serving
  have faults := releaseToCache_faults sound.inv block caching false
  rcases sound.inv.releaseToCache block (Or.inl caching) false with
    ⟨-, full⟩ | ⟨accepted, released, failed⟩
  · exact absurd full opens
  rw [← address] at accepted released failed faults
  rcases releaseToCache_room room pCurrent with ⟨checked, machine, pushed⟩
  have result := congrArg World.toMachine (World.pushL1_eq (w := checked)
    (by rw [machine]; exact caching.backed) (by rw [machine]; omega)
    (UInt32.ofNat (sizeSub pCurrent (w'.tls t i).pBucketData)))
  rw [World.setTls_toMachine, machine] at result
  have nonzero : pCurrent ≠ 0 := running
  have opened : forall rounds, TlsPoolBucket.warmupDrain t i (rounds + 1) pCurrent w' =
      TlsPoolBucket.warmupDrain t i rounds (w'.mem.read pCurrent 8)
        (Allocator.releaseToCache false w' t i pCurrent).2 := by
    intro rounds
    simp only [TlsPoolBucket.warmupDrain, if_neg nonzero, World.check_true _ accepted]
  rw [pushed] at released failed faults opened
  have rest' : WarmList pool i w'.mem (w'.mem.read pCurrent 8) hand :=
    ⟨linked, fun q member => draining.warm.blocks q (List.mem_cons_of_mem _ member)⟩
  refine ⟨_, _, ⟨⟨sound.released bound block released, rest'.confined bound released.confined,
    draining.confined.trans released.confined.of_append, ?_, failed.trans draining.failed⟩, ?_,
    draining.serving.kept (released.slots i), draining.kept.trans (released.slots i), ?_,
    faults.trans draining.faults⟩, ?_, ?_, opened⟩
  · exact (congrArg GenericAllocator.live released.heap).trans draining.live
  · intro j other
    rw [result, Machine.setTls_of_ne _ _ _ _ (fun both => other both.2)]
    exact draining.others j other
  · rw [result, Machine.setTls_same]
    exact draining.level0
  · rw [result, Machine.setTls_same]
  · rw [result, Machine.setTls_allocs]

/-- The moving loop counts nothing. -/
theorem warmupDrain_tally : forall (rounds pCurrent : Nat) (w' : World),
    (TlsPoolBucket.warmupDrain t i rounds pCurrent w').tally a = w'.tally a := by
  intro rounds
  induction rounds with
  | zero => exact fun _ _ => rfl
  | succ rounds ih =>
      intro pCurrent w'
      unfold TlsPoolBucket.warmupDrain
      split
      · rfl
      · exact (ih _ _).trans ((World.check_tally _ _).trans (World.releaseToCache_tally false pCurrent))

theorem warmupDrain_zero (rounds : Nat) (w : World) :
    TlsPoolBucket.warmupDrain t i rounds 0 w = w := by
  cases rounds with
  | zero => rfl
  | succ rounds => rw [TlsPoolBucket.warmupDrain, if_pos rfl]

/-- The moving loop brings the whole list to level 1, and there it ends; it
would make no use of further rounds. -/
theorem warmupDrain_spec (bound : i < pool.bucketsCount) : forall (rounds pCurrent : Nat)
    (w' : World) (hand : List Nat), hand.length ≤ rounds ->
    Draining pool a t i rest out w w' pCurrent hand ->
    (w'.tls t i).numElementsL1 + hand.length ≤ (w'.tls t i).maxElementsCount ->
    let drained := TlsPoolBucket.warmupDrain t i rounds pCurrent w'
    Draining pool a t i rest out w drained 0 [] ∧
      (drained.tls t i).numElementsL1 = (w'.tls t i).numElementsL1 + hand.length ∧
      drained.allocs = w'.allocs ∧
      forall more, TlsPoolBucket.warmupDrain t i (rounds + more) pCurrent w' = drained := by
  intro rounds
  induction rounds with
  | zero =>
      intro pCurrent w' hand short draining _
      cases hand with
      | nil =>
          have stopped : pCurrent = 0 := draining.warm.linked
          subst stopped
          exact ⟨draining, rfl, rfl, fun more => warmupDrain_zero _ w'⟩
      | cons p hand => exact absurd short (Nat.not_succ_le_zero _)
  | succ rounds ih =>
      intro pCurrent w' hand short draining fits
      cases hand with
      | nil =>
          have stopped : pCurrent = 0 := draining.warm.linked
          subst stopped
          rw [warmupDrain_zero]
          exact ⟨draining, rfl, rfl, fun more => warmupDrain_zero _ w'⟩
      | cons p hand =>
          rw [List.length_cons] at short fits
          rcases draining.round bound (by omega) with
            ⟨pNext, next, later, level1, allocs, continued⟩
          have capacity : (next.tls t i).maxElementsCount = (w'.tls t i).maxElementsCount :=
            later.kept.maxElementsCount.trans draining.kept.maxElementsCount.symm
          have done := ih pNext next hand (by omega) later (by omega)
          rw [continued rounds]
          refine ⟨done.1, ?_, done.2.2.1.trans allocs, ?_⟩
          · rw [done.2.1, level1, List.length_cons]
            omega
          · intro more
            rw [Nat.succ_add, continued (rounds + more)]
            exact done.2.2.2 more

end SmMalloc
