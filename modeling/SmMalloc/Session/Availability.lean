import SmMalloc.Session.Conservation
import SmMalloc.Session.Unsized

namespace SmMalloc

open Foundation

/-!
# All free blocks of a bucket can be had

A block that is neither held nor in another thread's cache is in the cache of
the thread that asks or on the central list, and a request looks in both before
it looks anywhere else.  So a thread whose fellows have no caches gets every
free block of a bucket, one after the other, and then none.
-/

variable {scheme : Partitioning} {pool : Pool scheme} {m : Machine} {s : Session}
variable {a i k o p t : Nat} {rest held : List Nat} {_bucketsCount _bucketSizeInBytes : Nat}

/-- The blocks of bucket `i`, by number, that are not held. -/
def Pool.freeBlocks (pool : Pool scheme) (held : List Nat) (i : Nat) : List Nat :=
  (List.range (pool.capacity i)).filter
    (fun k => decide (pool.pData i + k * pool.elementSize i ∉ held))

theorem Pool.mem_freeBlocks : k ∈ pool.freeBlocks held i <->
    k < pool.capacity i ∧ pool.pData i + k * pool.elementSize i ∉ held := by
  rw [freeBlocks, List.mem_filter, List.mem_range, decide_eq_true_iff]

/-- A block that is handed out is one free block less. -/
theorem Pool.freeBlocks_cons (bound : i < pool.bucketsCount) (free : k ∈ pool.freeBlocks held i) :
    (pool.freeBlocks ((pool.pData i + k * pool.elementSize i) :: held) i).length + 1 =
      (pool.freeBlocks held i).length := by
  have positive := Pool.element_pos bound
  have nodup : (pool.freeBlocks held i).Nodup := List.nodup_range.filter _
  have erased : pool.freeBlocks ((pool.pData i + k * pool.elementSize i) :: held) i =
      (pool.freeBlocks held i).erase k := by
    rw [nodup.erase_eq_filter, freeBlocks, freeBlocks, List.filter_filter]
    apply List.filter_congr
    intro j _
    have sameBlock : pool.pData i + j * pool.elementSize i = pool.pData i + k * pool.elementSize i
        <-> j = k := by
      rw [Nat.add_left_cancel_iff, Nat.mul_left_inj (by omega)]
    rw [Bool.eq_iff_iff, Bool.and_eq_true, decide_eq_true_iff, decide_eq_true_iff, bne_iff_ne,
      List.mem_cons, not_or, sameBlock]
  rw [erased, List.length_erase_of_mem free]
  have := List.length_pos_of_mem free
  omega

/-- When a thread finds nothing in a bucket and nobody else has a cache, then
all blocks of the bucket are held. -/
theorem Session.Sound.freeBlocks_exhausted (sound : s.Sound pool a rest)
    (bound : i < pool.bucketsCount) (others : forall u, u ≠ t -> s.Cacheless u)
    (exhausted : Exhausted pool a t i s.held s.world.toMachine) :
    pool.freeBlocks s.held i = [] := by
  rw [List.eq_nil_iff_forall_not_mem]
  intro k free
  rcases Pool.mem_freeBlocks.mp free with ⟨inside, unheld⟩
  have block : pool.IsBlock i (k * pool.elementSize i) := ⟨k, inside, rfl⟩
  rcases (exhausted.central.custody.covers _).mp block with ⟨holder, kept⟩
  cases holder with
  | central => cases kept
  | cache u =>
      change _ ∈ s.world.cached a i u at kept
      by_cases same : u = t
      · subst same
        have empty := exhausted.cache
        unfold TlsPoolBucket.getElementsCount at empty
        rw [sound.cached, offsets_of_empty (by omega) (by omega)] at kept
        cases kept
      · rw [Machine.cached, if_neg (by rw [others u same i]; simp)] at kept
        cases kept
  | client => exact unheld ((SmMalloc.Sound.listed_iff sound bound block).mp kept)

/-- `Alloc` for a block of bucket `i`, again and again; its answers in order. -/
def Session.allocRun (scheme : Partitioning) (a t bytesCount alignment : Nat) :
    Nat -> Session -> List Nat
  | 0, _ => []
  | rounds + 1, s =>
      (Allocator.alloc scheme s.world a t bytesCount alignment).1 ::
        allocRun scheme a t bytesCount alignment rounds
          (Session.step scheme a s (.alloc t bytesCount alignment))

/-- The answer of one call: a free block of bucket `i` as long as there is one. -/
structure Pool.Answered (pool : Pool scheme) (i : Nat) (held held' : List Nat) (p : Nat) : Prop where
  addressable : p < 2 ^ 64
  served : pool.freeBlocks held i ≠ [] -> pool.findBucket p = i ∧ p ∉ held ∧ held' = p :: held ∧
    (pool.freeBlocks (p :: held) i).length + 1 = (pool.freeBlocks held i).length
  none : pool.freeBlocks held i = [] -> pool.findBucket p ≠ i

theorem validOne : ValidAlignment 1 := ⟨0, by decide, rfl⟩

theorem Session.Sound.answered (sound : s.Sound pool a rest) (bound : i < pool.bucketsCount)
    (others : forall u, u ≠ t -> s.Cacheless u) :
    let size := scheme.getBucketSizeInBytesByIndex i
    pool.Answered i s.held (Session.step scheme a s (.alloc t size 1)).held
      (Allocator.alloc scheme s.world a t size 1).1 := by
  intro size
  have small := Nat.lt_of_lt_of_le bound pool.count_le
  have positive : 16 ≤ size := pool.sized.size_pos i small
  have nonempty : size ≠ 0 := by omega
  have index : requestIndex scheme size 1 = i :=
    requestIndex_size pool.sized small validOne (Nat.one_dvd _)
  have allocated := SmMalloc.Sound.request sound t validOne nonempty
  have held : (Session.step scheme a s (.alloc t size 1)).held =
      Session.grant s.held size (Allocator.alloc scheme s.world a t size 1).1 := rfl
  rw [held]
  change Allocated pool a t size 1 s.held s.world.toMachine
    (Allocator.alloc scheme s.world a t size 1).1
    (Allocator.alloc scheme s.world a t size 1).2.toMachine at allocated
  generalize (Allocator.alloc scheme s.world a t size 1).1 = p,
    (Allocator.alloc scheme s.world a t size 1).2.toMachine = m' at allocated ⊢
  cases allocated with
  | block j o inside suitable exhausted taken =>
      rw [index] at exhausted
      have found := Pool.findBucket_block inside taken.block
      have address := SmMalloc.Sound.block_address inside taken.block
      have granted : Session.grant s.held size (pool.pData j + o) = (pool.pData j + o) :: s.held := by
        rw [Session.grant, if_neg (by omega)]
      refine ⟨address.2, fun free => ?_, fun none => ?_⟩
      · have same : j = i := by
          by_contra other
          exact free (sound.freeBlocks_exhausted bound others (exhausted other))
        subst same
        have unheld : pool.pData j + o ∉ s.held := fun inHeld =>
          taken.fresh ((SmMalloc.Sound.listed_iff sound bound taken.block).mpr inHeld)
        refine ⟨found, unheld, granted, ?_⟩
        rcases taken.block with ⟨k, within, rfl⟩
        exact Pool.freeBlocks_cons bound (Pool.mem_freeBlocks.mpr ⟨within, unheld⟩)
      · rw [found]
        rintro rfl
        rcases taken.block with ⟨k, within, rfl⟩
        have free : k ∈ pool.freeBlocks s.held j := Pool.mem_freeBlocks.mpr ⟨within, fun inHeld =>
          taken.fresh ((SmMalloc.Sound.listed_iff sound bound ⟨k, within, rfl⟩).mpr inHeld)⟩
        rw [none] at free
        cases free
  | generic exhausted =>
      rw [index] at exhausted
      have elsewhere : pool.bucketsCount ≤ pool.findBucket (s.world.heap.answer size 1) :=
        (SmMalloc.Sound.inv sound).answer_elsewhere (by omega)
      refine ⟨?_, fun free => ?_, fun _ => by omega⟩
      · by_cases answer : s.world.heap.answer size 1 = 0
        · rw [answer]
          decide
        · have := (GenericAllocator.serves_of_answer answer).2.1
          omega
      · exact absurd (sound.freeBlocks_exhausted bound others (exhausted bound)) free

/-- An allocation gives no thread a cache. -/
theorem Session.Sound.alloc_cacheless {u bytesCount alignment : Nat} (sound : s.Sound pool a rest)
    (valid : ValidAlignment alignment) (cacheless : s.Cacheless u) :
    (Session.step scheme a s (.alloc t bytesCount alignment)).Cacheless u := by
  intro j
  have kept : (s.world.tls u j).Kept
      ((Session.step scheme a s (.alloc t bytesCount alignment)).world.tls u j) :=
    sound.alloc_kept valid u j
  exact kept.pBucket.trans (cacheless j)

/-- The calls take the free blocks one by one, and then find none. -/
theorem Session.Sound.drains (bound : i < pool.bucketsCount) : forall (rounds : Nat) (s : Session),
    s.Sound pool a rest -> (forall u, u ≠ t -> s.Cacheless u) ->
    (pool.freeBlocks s.held i).length = rounds ->
    let answers := s.allocRun scheme a t (scheme.getBucketSizeInBytesByIndex i) 1 (rounds + 1)
    (forall p, p ∈ answers -> p < 2 ^ 64) ∧
      (forall p, p ∈ answers.take rounds -> pool.findBucket p = i ∧ p ∉ s.held) ∧
      (answers.take rounds).Nodup ∧
      forall p, p ∈ answers.drop rounds -> pool.findBucket p ≠ i := by
  intro rounds
  induction rounds with
  | zero =>
      intro s sound others used answers
      have answered := sound.answered bound others
      have noBlock : pool.freeBlocks s.held i = [] := List.length_eq_zero_iff.mp used
      refine ⟨fun p member => ?_, fun p member => ?_, List.nodup_nil, fun p member => ?_⟩
      · rw [List.mem_singleton.mp member]
        exact answered.addressable
      · cases member
      · rw [List.mem_singleton.mp member]
        exact answered.none noBlock
  | succ rounds ih =>
      intro s sound others remaining answers
      have answered := sound.answered bound others
      have free : pool.freeBlocks s.held i ≠ [] := by
        intro empty
        rw [empty] at remaining
        cases remaining
      rcases answered.served free with ⟨found, unheld, granted, fewer⟩
      rw [← granted] at fewer
      have later := ih (Session.step scheme a s
          (.alloc t (scheme.getBucketSizeInBytesByIndex i) 1)) (sound.alloc validOne)
        (fun u different => sound.alloc_cacheless validOne (others u different)) (by omega)
      rw [granted] at later
      rcases later with ⟨addresses, blocks, nodup, last⟩
      refine ⟨fun p member => ?_, fun p member => ?_, ?_, last⟩
      · rcases List.mem_cons.mp member with rfl | after
        · exact answered.addressable
        · exact addresses p after
      · rcases List.mem_cons.mp member with rfl | after
        · exact ⟨found, unheld⟩
        · exact ⟨(blocks p after).1, fun inHeld => (blocks p after).2 (List.mem_cons_of_mem _ inHeld)⟩
      · apply List.Nodup.cons _ nodup
        intro again
        exact (blocks _ again).2 List.mem_cons_self

namespace Session

/-- The blocks of bucket `i`, by number, that no client holds. -/
def freeBlocks (scheme : Partitioning) (a i : Nat) (s : Session) : List Nat :=
  (List.range (Allocator.getBucketElementsCount scheme (s.world.allocs a) i)).filter
    (fun k => decide
      ((s.world.bucket a i).pData + k * scheme.getBucketSizeInBytesByIndex i ∉ s.held))

/-- `answers` are the free blocks of bucket `i`, each once, and one more answer
that is not in the bucket. -/
structure Drained (scheme : Partitioning) (a i : Nat) (s : Session) (answers : List Nat) : Prop where
  length : answers.length = (s.freeBlocks scheme a i).length + 1
  blocks : forall p, p ∈ answers.take (s.freeBlocks scheme a i).length ->
    (s.world.allocs a).getBucketIndex p = i ∧ p ∉ s.held
  nodup : (answers.take (s.freeBlocks scheme a i).length).Nodup
  last : forall p, p ∈ answers.drop (s.freeBlocks scheme a i).length ->
    (s.world.allocs a).getBucketIndex p ≠ i
  all : (forall p, p ∈ s.held -> (s.world.allocs a).getBucketIndex p ≠ i) ->
    (s.freeBlocks scheme a i).length =
      Allocator.getBucketElementsCount scheme (s.world.allocs a) i

theorem Sound.freeBlocks (sound : s.Sound pool a rest) (bound : i < pool.bucketsCount) :
    s.freeBlocks scheme a i = pool.freeBlocks s.held i := by
  have represents := (SmMalloc.Sound.inv sound).represents
  have pData : (s.world.bucket a i).pData = pool.pData i := represents.pData i bound
  rw [Session.freeBlocks, represents.getBucketElementsCount bound, pData]
  rfl

theorem allocRun_length {bytesCount alignment : Nat} (rounds : Nat) : forall s : Session,
    (s.allocRun scheme a t bytesCount alignment rounds).length = rounds := by
  induction rounds with
  | zero => exact fun _ => rfl
  | succ rounds ih => exact fun s => congrArg (· + 1) (ih _)

/-- After every run in which the other threads destroy their caches, a thread
gets all free blocks of a bucket and then no more. -/
theorem availability {first : Session} {ops : List Op} (integral : scheme ≠ .float)
    (wellFormed : WellFormed scheme _bucketsCount _bucketSizeInBytes)
    (start : (system scheme a _bucketsCount _bucketSizeInBytes).start first)
    (permitted : (system scheme a _bucketsCount _bucketSizeInBytes).Permitted first ops)
    (destroyed : forall u, u ≠ t -> DestroysCache u ops)
    (last : s = (system scheme a _bucketsCount _bucketSizeInBytes).run first ops)
    (bound : i < (s.world.allocs a).bucketsCount) :
    s.Drained scheme a i (s.allocRun scheme a t (scheme.getBucketSizeInBytesByIndex i) 1
      ((s.freeBlocks scheme a i).length + 1)) := by
  rcases Start.sound start wellFormed (Partitioning.sized integral) with
    ⟨⟨pool, rest, atStart⟩, cacheless⟩
  have sound : s.Sound pool a rest := last ▸ atStart.run permitted
  have others : forall u, u ≠ t -> s.Cacheless u := fun u different =>
    last ▸ atStart.run_cacheless (cacheless u) permitted (destroyed u different)
  have represents := (SmMalloc.Sound.inv sound).represents
  have bound' : i < pool.bucketsCount := represents.bucketsCount ▸ bound
  have free := sound.freeBlocks bound'
  have index : forall p, p < 2 ^ 64 ->
      ((s.world.allocs a).getBucketIndex p = i <-> pool.findBucket p = i) :=
    fun p addressable => represents.getBucketIndex addressable bound'
  rcases sound.drains bound' _ s others rfl with ⟨addresses, blocks, nodup, last⟩
  rw [free]
  refine ⟨?_, ?_, ?_, ?_, ?_⟩
  · rw [free, allocRun_length]
  · rw [free]
    intro p member
    have answer := blocks p member
    exact ⟨(index p (addresses p (List.mem_of_mem_take member))).mpr answer.1, answer.2⟩
  · rw [free]
    exact nodup
  · rw [free]
    intro p member
    rw [ne_eq, index p (addresses p (List.mem_of_mem_drop member))]
    exact last p member
  · intro unheld
    rw [free, Pool.freeBlocks, represents.getBucketElementsCount bound']
    rw [List.filter_eq_self.mpr, List.length_range]
    intro k inside
    have block : pool.IsBlock i (k * pool.elementSize i) := ⟨k, List.mem_range.mp inside, rfl⟩
    have address := SmMalloc.Sound.block_address bound' block
    refine decide_eq_true (fun inHeld => unheld _ inHeld ?_)
    exact (index _ address.2).mpr (Pool.findBucket_block bound' block)

/-- Thread 1 has a cache, uses it and destroys it, and thread 0 keeps its own. -/
def destroyedRun : List Op :=
  [.createThreadCache 0 .warm [4], .createThreadCache 1 .hot [3], .alloc 1 16 4, .alloc 0 16 4,
    .free 1 8224, .destroyThreadCache 1]

def onePageDestroyed : Session := (system .piecewise 0 1 4096).run onePage destroyedRun

theorem destroyedRun_permitted :
    (system .piecewise 0 1 4096).Permitted onePage destroyedRun := by
  have start : Start .piecewise 0 1 4096 onePage := initial_start (by decide)
  rcases start.sound (onePage_wellFormed (by decide)) (Partitioning.sized (by decide)) with
    ⟨⟨pool, rest, sound⟩, cacheless⟩
  have warm : onePage.Allowed .piecewise 0 (.createThreadCache 0 .warm [4]) :=
    ⟨cacheless 0, by decide, by decide, by decide +kernel⟩
  have other : ¬ (Op.createThreadCache 0 .warm [4]).Creates 1 := Nat.zero_ne_one
  have without : (step .piecewise 0 onePage (.createThreadCache 0 .warm [4])).Cacheless 1 :=
    sound.step_cacheless warm other (cacheless 1)
  refine ⟨warm, ⟨without, by decide +kernel, by decide, by decide +kernel⟩,
    ⟨by decide, valid_four⟩, ⟨by decide, valid_four⟩, Or.inr ?_, trivial, trivial⟩
  decide +kernel

theorem availability_onePage :
    onePageDestroyed.Drained .piecewise 0 0 (onePageDestroyed.allocRun .piecewise 0 0
      (Partitioning.piecewise.getBucketSizeInBytesByIndex 0) 1
      ((onePageDestroyed.freeBlocks .piecewise 0 0).length + 1)) := by
  apply availability (by decide) (onePage_wellFormed (by decide))
    (initial_start (by decide)) destroyedRun_permitted ?_ rfl (by decide +kernel)
  intro u other
  refine ⟨fun zero => absurd zero.symm other, fun one => ⟨.destroyThreadCache 1, ?_, one⟩,
    False.elim, False.elim, False.elim, False.elim, trivial⟩
  simp

/-- Thread 0, the only one with a cache, gets the block at 8208 from level 1,
and again when it follows the link of the first block. -/
theorem availability_overlap :
    ∃ first ops, (unsizedSystem .piecewise 0 1 4096).start first ∧
      (unsizedSystem .piecewise 0 1 4096).Permitted first ops ∧
      (forall u, u ≠ 0 -> DestroysCache u ops) ∧
      let s := (unsizedSystem .piecewise 0 1 4096).run first ops
      0 < (s.world.allocs 0).bucketsCount ∧
        ¬ s.Drained .piecewise 0 0 (s.allocRun .piecewise 0 0
          (Partitioning.piecewise.getBucketSizeInBytesByIndex 0) 1
          ((s.freeBlocks .piecewise 0 0).length + 1)) := by
  have permitted : (unsizedSystem .piecewise 0 1 4096).Permitted beforeOverlap
      (overlapRun ++ overlapRest) :=
    (Transition.permitted_append _ _ _ _).mpr
      ⟨overlapRun_permitted.1, overlapRest_permitted overlapRun_permitted.2⟩
  refine ⟨beforeOverlap, overlapRun ++ overlapRest, initial_start (by decide), permitted, ?_, ?_⟩
  · intro u other
    apply Transition.closed_of_none
    intro op member creates
    cases op with
    | createThreadCache t warmupOptions options =>
        simp [overlapRun, overlapRest, allocMany, freeAll] at member
        exact other (creates.symm.trans member.1)
    | alloc => cases creates
    | free => cases creates
    | realloc => cases creates
    | destroyThreadCache => cases creates
    | write => cases creates
  · intro s
    have isOverlapped : s = overlapped := Transition.run_append _ _ _ _
    rw [isOverlapped]
    refine ⟨by decide +kernel, fun drained => ?_⟩
    have free : (overlapped.freeBlocks .piecewise 0 0).length = 256 := by decide +kernel
    have nodup := drained.nodup
    rw [free] at nodup
    have again : ((overlapped.allocRun .piecewise 0 0
        (Partitioning.piecewise.getBucketSizeInBytesByIndex 0) 1 257).take 256)[7]? =
          ((overlapped.allocRun .piecewise 0 0
            (Partitioning.piecewise.getBucketSizeInBytesByIndex 0) 1 257).take 256)[26]? := by
      decide +kernel
    apply List.nodup_iff_getElem?_ne_getElem?.mp nodup 7 26 (by decide) ?_ again
    rw [List.length_take, allocRun_length]
    decide

end Session

end SmMalloc
