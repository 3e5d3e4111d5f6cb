import SmMalloc.Session.Reallocation
import SmMalloc.Session.Share
import SmMalloc.Session.Unsized

namespace SmMalloc

open Foundation

/-!
# The contents of the blocks that clients hold

The links of all free lists are bytes of free blocks.  So no operation writes
to a block that a client keeps, and no client writes to a link.  The one
operation that handles the bytes of clients is `Realloc`, which moves them with
the block.
-/

variable {scheme : Partitioning} {pool : Pool scheme} {m m' : Machine} {s s' : Session}
variable {a i t p q r x : Nat} {bytesCount alignment : Nat} {rest out : List Nat}
variable {_bucketsCount _bucketSizeInBytes : Nat}

namespace Session

/-- The usable bytes of the block at `p` are what they were. -/
def SameContents (scheme : Partitioning) (a : Nat) (s s' : Session) (p : Nat) : Prop :=
  forall k, k < Allocator.getUsableSize scheme s.world a p ->
    s'.world.mem (p + k) = s.world.mem (p + k)

/-- The byte at `x` belongs to a block of the pool that no client holds. -/
def FreeByte (scheme : Partitioning) (a : Nat) (s : Session) (x : Nat) : Prop :=
  ∃ i k, i < (s.world.allocs a).bucketsCount ∧
    k < Allocator.getBucketElementsCount scheme (s.world.allocs a) i ∧
    (s.world.bucket a i).pData + k * scheme.getBucketSizeInBytesByIndex i ∉ s.held ∧
    (s.world.bucket a i).pData + k * scheme.getBucketSizeInBytesByIndex i ≤ x ∧
    x < (s.world.bucket a i).pData + k * scheme.getBucketSizeInBytesByIndex i +
      scheme.getBucketSizeInBytesByIndex i

/-- The free lists are as they were: no byte of a free block has changed, and
so no link of a central list; the heads and the caches have not changed either. -/
structure SameLists (scheme : Partitioning) (a : Nat) (s s' : Session) : Prop where
  bytes : forall x, s.FreeByte scheme a x -> s'.world.mem x = s.world.mem x
  links : forall i central o, i < (s.world.allocs a).bucketsCount -> s.CentralList a i central ->
    o ∈ central -> linksAt s'.world.mem (s.world.bucket a i).pData o =
      linksAt s.world.mem (s.world.bucket a i).pData o
  allocs : s'.world.allocs = s.world.allocs
  tls : s'.world.tls = s.world.tls
  heap : s'.world.heap = s.world.heap

end Session

namespace Session.Sound

/-- A client sees which bytes are free. -/
theorem freeByte_iff (sound : s.Sound pool a rest) :
    s.FreeByte scheme a x <-> pool.FreeByte s.held x := by
  have represents := (SmMalloc.Sound.inv sound).represents
  have unlisted : forall {i o}, i < pool.bucketsCount -> pool.IsBlock i o ->
      (o ∉ pool.offsets s.held i <-> pool.pData i + o ∉ s.held) :=
    fun bound block => not_congr (SmMalloc.Sound.listed_iff sound bound block)
  constructor
  · rintro ⟨i, k, bound, inside, unheld, low, high⟩
    rw [represents.bucketsCount] at bound
    have pData : (s.world.bucket a i).pData = pool.pData i := represents.pData i bound
    rw [represents.getBucketElementsCount bound] at inside
    rw [pData] at unheld low high
    have block : pool.IsBlock i (k * pool.elementSize i) := ⟨k, inside, rfl⟩
    exact ⟨i, _, bound, block, (unlisted bound block).mpr unheld, low, high⟩
  · rintro ⟨i, _, bound, ⟨k, inside, rfl⟩, unheld, low, high⟩
    have block : pool.IsBlock i (k * pool.elementSize i) := ⟨k, inside, rfl⟩
    have pData : (s.world.bucket a i).pData = pool.pData i := represents.pData i bound
    refine ⟨i, k, represents.bucketsCount ▸ bound, ?_, ?_⟩
    · rw [represents.getBucketElementsCount bound]
      exact inside
    · rw [pData]
      exact ⟨(unlisted bound block).mp unheld, low, high⟩

/-- An operation that writes only to free bytes leaves the contents alone. -/
theorem contents_of_confined {out : List Nat} {m' : Machine} (sound : s.Sound pool a rest)
    (confined : Confined pool a t out s.world.toMachine m') (member : p ∈ s.held)
    (still : p ∈ out) {k : Nat} (inside : k < Allocator.getUsableSize scheme s.world a p) :
    m'.mem (p + k) = s.world.mem (p + k) := by
  have extent := (SmMalloc.Sound.extent sound member).transfer still (fun _ live => live)
  exact extent.kept confined (Nat.le_add_right _ _) (by omega)

theorem alloc_contents (sound : s.Sound pool a rest) (valid : ValidAlignment alignment) :
    (Allocator.alloc scheme s.world a t bytesCount alignment).2.mem = s.world.mem := by
  by_cases empty : bytesCount = 0
  · subst empty
    rw [alloc_empty valid]
  · exact (SmMalloc.Sound.request sound t valid empty).confined.2

theorem free_contents (sound : s.Sound pool a rest) (returnable : s.Returnable q)
    (member : p ∈ s.held) (still : p ∈ s.held.erase q) {k : Nat}
    (inside : k < Allocator.getUsableSize scheme s.world a p) :
    (Allocator.free s.world a t q).mem (p + k) = s.world.mem (p + k) := by
  rcases returnable with small | held
  · rw [free_empty small]
  · exact sound.contents_of_confined ((sound.returned held).free t).2.1 member still inside

/-- What a successful reallocation leaves with the clients. -/
theorem realloc_held (above : kMaxValidAlignment < q) (nonempty : bytesCount ≠ 0)
    (served : (Allocator.realloc scheme s.world a t q bytesCount alignment).1 ≠ 0) :
    (Session.step scheme a s (.realloc t q bytesCount alignment)).held =
      (Allocator.realloc scheme s.world a t q bytesCount alignment).1 :: s.held.erase q := by
  rw [step_realloc rfl, if_neg (not_unreadable above), if_neg nonempty, if_pos served]

/-- A block that is still held after a reallocation has its contents, whether
it is the one that was to be reallocated or not. -/
theorem realloc_contents (sound : s.Sound pool a rest) (returnable : s.Returnable q)
    (bytesBound : bytesCount < 2 ^ 64) (valid : ValidAlignment alignment) (member : p ∈ s.held)
    (still : p ∈ (Session.step scheme a s (.realloc t q bytesCount alignment)).held) :
    s.SameContents scheme a (Session.step scheme a s (.realloc t q bytesCount alignment)) p := by
  intro k inside
  rw [realloc_world]
  by_cases small : q ≤ kMaxValidAlignment
  · rw [realloc_empty small, sound.alloc_contents valid]
  have held := returnable.resolve_left small
  have above := Nat.lt_of_not_le small
  by_cases empty : bytesCount = 0
  · rw [step_realloc rfl, if_neg (not_unreadable above), if_pos empty] at still
    rw [empty, realloc_zero above]
    exact sound.free_contents returnable member still inside
  have before := sound.returned held
  have outcome := before.relocation t valid empty bytesBound
  have positive : 0 < bytesCount := by omega
  by_cases other : p ∈ s.held.erase q
  · have extent := (SmMalloc.Sound.extent sound member).transfer
      (List.mem_cons_of_mem q other) (fun _ live => live)
    exact before.reallocated_kept positive bytesBound valid outcome other extent
      (Nat.le_add_right _ _) (by omega)
  by_cases null : (Allocator.realloc scheme s.world a t q bytesCount alignment).1 = 0
  · exact congrFun (outcome.null_mem null) _
  · rw [realloc_held above empty null] at still
    have stays : q = p := by
      by_contra moved
      exact other ((List.mem_erase_of_ne (fun same => moved same.symm)).mpr member)
    rcases List.mem_cons.mp still with result | later
    · have same := before.reallocated_inPlace positive outcome null (result.symm.trans stays.symm)
      exact congrFun (congrArg Machine.mem same) _
    · exact absurd later other

/-- No step but a write changes a block that is held before and after it. -/
theorem step_contents {op : Op} (sound : s.Sound pool a rest) (allowed : Allowed scheme a s op)
    (noWrite : forall q k v, op ≠ .write q k v) (member : p ∈ s.held)
    (still : p ∈ (Session.step scheme a s op).held) :
    s.SameContents scheme a (Session.step scheme a s op) p := by
  cases op with
  | alloc t bytesCount alignment =>
      exact fun k _ => congrFun (sound.alloc_contents allowed.2) _
  | free t q => exact fun k inside => sound.free_contents allowed member still inside
  | realloc t q bytesCount alignment =>
      exact sound.realloc_contents allowed.1 allowed.2.1 allowed.2.2 member still
  | createThreadCache t warmupOptions options =>
      exact fun k inside =>
        sound.contents_of_confined (sound.created allowed).confined member still inside
  | destroyThreadCache t =>
      have destroyed := SmMalloc.Sound.destroyThreadCache sound t
      exact fun k inside => sound.contents_of_confined destroyed.confined member still inside
  | write q k v => exact absurd rfl (noWrite q k v)

/-- A write to a block that is held changes no free byte. -/
theorem write_free {k : Nat} {v : UInt8} (sound : s.Sound pool a rest) (member : p ∈ s.held)
    (inside : k < Allocator.getUsableSize scheme s.world a p) (free : pool.FreeByte s.held x) :
    (Session.step scheme a s (.write p k v)).world.mem x = s.world.mem x := by
  apply Memory.poke_outside
  rintro rfl
  exact (SmMalloc.Sound.extent sound member).not_free (Nat.le_add_right _ _) (by omega) free

/-- A write leaves the free lists alone. -/
theorem write_lists {k : Nat} {v : UInt8} (sound : s.Sound pool a rest) (member : p ∈ s.held)
    (inside : k < Allocator.getUsableSize scheme s.world a p) :
    s.SameLists scheme a (Session.step scheme a s (.write p k v)) where
  bytes := fun x free => sound.write_free member inside (sound.freeByte_iff.mp free)
  links := by
    intro i central o bound list inCentral
    have represents := (SmMalloc.Sound.inv sound).represents
    have bound' : i < pool.bucketsCount := represents.bucketsCount ▸ bound
    have pData : (s.world.bucket a i).pData = pool.pData i := represents.pData i bound'
    have bucket := (sound.centralList_iff bound' central).mp list
    have block := bucket.isBlock_central inCentral
    have wide := Pool.element_pos bound'
    rw [pData]
    apply TaggedIndex.load_congr
    intro byte within
    exact sound.write_free member inside
      ⟨i, o, bound', block, bucket.central_client inCentral, Nat.le_add_right _ _, by omega⟩
  allocs := rfl
  tls := rfl
  heap := rfl

end Session.Sound

/-- In every session the contents of a block change only by the client's own
writes, until it is given back, and these writes change no free list. -/
theorem Session.contents {op : Op} (integral : scheme ≠ .float)
    (wellFormed : WellFormed scheme _bucketsCount _bucketSizeInBytes)
    (reachable : (Session.system scheme a _bucketsCount _bucketSizeInBytes).Reachable s)
    (allowed : Session.Allowed scheme a s op) :
    ((forall q k v, op ≠ .write q k v) -> forall p, p ∈ s.held ->
        p ∈ (Session.step scheme a s op).held ->
        s.SameContents scheme a (Session.step scheme a s op) p) ∧
      forall p k v, op = .write p k v -> s.SameLists scheme a (Session.step scheme a s op) := by
  rcases Session.reachable_sound wellFormed (Partitioning.sized integral) reachable with
    ⟨pool, rest, -, sound⟩
  constructor
  · intro noWrite p member still
    exact sound.step_contents allowed noWrite member still
  · rintro p k v rfl
    exact sound.write_lists allowed.1 allowed.2

theorem Session.contents_onePage :
    ((forall q k v, Op.realloc 0 8208 5000 4 ≠ .write q k v) ->
        forall p, p ∈ Session.onePageTwo.held ->
        p ∈ (Session.step .piecewise 0 Session.onePageTwo (.realloc 0 8208 5000 4)).held ->
        Session.onePageTwo.SameContents .piecewise 0
          (Session.step .piecewise 0 Session.onePageTwo (.realloc 0 8208 5000 4)) p) ∧
      forall p k v, Op.realloc 0 8208 5000 4 = .write p k v ->
        Session.onePageTwo.SameLists .piecewise 0
          (Session.step .piecewise 0 Session.onePageTwo (.realloc 0 8208 5000 4)) :=
  Session.contents (by decide) (onePage_wellFormed (by decide)) Session.onePageTwo_reachable
    ⟨Or.inr (by decide +kernel), by decide, valid_four⟩

/-- The block at 8192 is held when a block that another call frees is pushed onto it. -/
theorem Session.contents_overlap :
    ∃ s, (unsizedSystem .piecewise 0 1 4096).Reachable s ∧
      ∃ op p, s.AllowedUnsized .piecewise 0 op ∧ (forall q k v, op ≠ .write q k v) ∧ p ∈ s.held ∧
        p ∈ (step .piecewise 0 s op).held ∧
        ¬ s.SameContents .piecewise 0 (step .piecewise 0 s op) p := by
  have held := overlapRun_permitted.2
  have freed : forall s : Session, (step .piecewise 0 s (.free 0 8224)).held =
      s.held.erase 8224 := fun _ => rfl
  refine ⟨overlapping, overlapping_reachable, .free 0 8224, 8192, Or.inr ?_, ?_, ?_, ?_, ?_⟩
  · rw [held]
    decide
  · intro q k v write
    cases write
  · rw [held]
    decide
  · rw [freed, held]
    decide
  · intro same
    have first := same 0 (by decide +kernel)
    revert first
    decide +kernel

/-! ## Contents that move -/

namespace GenericAllocator

/-- How often the block at `p` has been given back. -/
def freed (heap : GenericAllocator) (p : Nat) : Nat := heap.events.count (.free p)

def isRefusal : HeapEvent -> Bool
  | .alloc _ _ result => decide (result = 0)
  | .free _ => false

/-- How many requests have been refused. -/
def refusals (heap : GenericAllocator) : Nat := heap.events.countP isRefusal

variable {heap : GenericAllocator}

theorem freed_alloc (p : Nat) : (heap.alloc bytesCount alignment).2.freed p = heap.freed p := by
  simp only [freed, alloc, List.count_cons, beq_iff_eq, reduceCtorEq, if_false, Nat.add_zero]

theorem freed_free (nonzero : q ≠ 0) (p : Nat) :
    (heap.free q).freed p = heap.freed p + if p = q then 1 else 0 := by
  simp only [freed, free, if_neg nonzero, List.count_cons, beq_iff_eq, HeapEvent.free.injEq]
  by_cases same : p = q
  · subst same
    rfl
  · rw [if_neg same, if_neg (fun equal => same equal.symm)]

theorem refusals_free (q : Nat) : (heap.free q).refusals = heap.refusals := by
  unfold free
  split
  · rfl
  · exact List.countP_cons_of_neg Bool.false_ne_true

theorem refusals_alloc (refused : heap.answer bytesCount alignment = 0) :
    (heap.alloc bytesCount alignment).2.refusals = heap.refusals + 1 :=
  List.countP_cons_of_pos (decide_eq_true refused)

end GenericAllocator

theorem Allocated.freed (allocated : Allocated pool a t bytesCount alignment out m r m') (p : Nat) :
    m'.heap.freed p = m.heap.freed p := by
  cases allocated with
  | block j o bound suitable exhausted taken => rw [taken.heap]
  | generic => exact GenericAllocator.freed_alloc p

/-- An allocation that fails has been refused by the fallback heap. -/
theorem Allocated.refusals
    (allocated : Allocated pool a t bytesCount alignment out m r m') (null : r = 0) :
    m'.heap.refusals = m.heap.refusals + 1 := by
  cases allocated with
  | block j o bound suitable exhausted taken => exact absurd null (pool.block_ne_zero j o)
  | generic => exact GenericAllocator.refusals_alloc null

/-- A reallocation that fails has been refused by the fallback heap. -/
theorem Reallocated.refusals (readable : p ≠ 0)
    (reallocated : Reallocated pool a t p bytesCount alignment out m r m') (null : r = 0) :
    m'.heap.refusals = m.heap.refusals + 1 := by
  cases reallocated with
  | inPlace => exact absurd null readable
  | refused allocated => exact allocated.refusals null
  | lost _ allocated =>
      rw [GenericAllocator.refusals_free]
      exact allocated.refusals null
  | fromPool _ _ _ _ _ _ _ served => exact absurd null served
  | fromHeap _ _ served => exact absurd null served

/-- A block that moves is given back to the fallback heap once, if it is from there. -/
theorem Reallocated.freed (readable : p ≠ 0)
    (reallocated : Reallocated pool a t p bytesCount alignment out m r m') (served : r ≠ 0)
    (moved : r ≠ p) (q : Nat) : m'.heap.freed q = m.heap.freed q +
      if pool.bucketsCount ≤ pool.findBucket p ∧ q = p then 1 else 0 := by
  cases reallocated with
  | inPlace => exact absurd rfl moved
  | refused => exact absurd rfl served
  | lost => exact absurd rfl served
  | fromPool i o bound block address short allocated _ released =>
      have inside : ¬ (pool.bucketsCount ≤ pool.findBucket p ∧ q = p) := by
        rw [address, Pool.findBucket_block bound block]
        omega
      rw [if_neg inside, released.heap]
      exact allocated.freed q
  | fromHeap elsewhere allocated _ =>
      rw [GenericAllocator.freed_free readable, allocated.freed q]
      simp only [elsewhere, true_and]

/-- A block of the fallback heap that moves is no longer live there. -/
theorem Reallocated.not_live (readable : p ≠ 0)
    (reallocated : Reallocated pool a t p bytesCount alignment out m r m') (served : r ≠ 0)
    (elsewhere : pool.bucketsCount ≤ pool.findBucket p) : ¬ m'.heap.Live p := by
  have outside : forall i o, i < pool.bucketsCount -> pool.IsBlock i o -> p ≠ pool.pData i + o := by
    rintro i o bound block rfl
    rw [Pool.findBucket_block bound block] at elsewhere
    omega
  cases reallocated with
  | inPlace i o bound block address _ => exact absurd address (outside i o bound block)
  | refused => exact absurd rfl served
  | lost => exact absurd rfl served
  | fromPool i o bound block address _ _ _ _ => exact absurd address (outside i o bound block)
  | fromHeap _ allocated _ => exact fun live => ((GenericAllocator.live_free readable p).mp live).2 rfl

namespace Session

/-- The block at `p` has been given back to where it came from, and only once. -/
structure GivenBack (scheme : Partitioning) (a : Nat) (s s' : Session) (p : Nat) : Prop where
  gone : p ∉ s'.held
  pool : forall i, (s.world.allocs a).findBucket p = i -> i < (s.world.allocs a).bucketsCount ->
    (∃ central place, Division scheme s' a i central ∧ place ≠ Place.client ∧
      p - (s.world.bucket a i).pData ∈ s'.keeps a i central place) ∧
    forall r, s'.world.heap.freed r = s.world.heap.freed r
  heap : (s.world.allocs a).bucketsCount ≤ (s.world.allocs a).findBucket p ->
    s.world.heap.Live p ∧ ¬ s'.world.heap.Live p ∧
      forall r, s'.world.heap.freed r = s.world.heap.freed r + if r = p then 1 else 0

/-- The block at `p` has grown to `bytesCount` bytes, now at `q`. -/
structure Carried (scheme : Partitioning) (a : Nat) (s s' : Session) (p q bytesCount : Nat) :
    Prop where
  large : bytesCount ≤ Allocator.getUsableSize scheme s'.world a q
  contents : forall k, k < min (Allocator.getUsableSize scheme s.world a p) bytesCount ->
    s'.world.mem (q + k) = s.world.mem (p + k)
  stays : q = p -> s'.world.toMachine = s.world.toMachine
  moves : q ≠ p -> q ∉ s.held ∧ s.GivenBack scheme a s' p
  written : forall x, s'.world.mem x ≠ s.world.mem x ->
    (q ≤ x ∧ x < q + Allocator.getUsableSize scheme s'.world a q) ∨ s'.FreeByte scheme a x
  held : s'.held = q :: s.held.erase p
  others : forall r, r ∈ s.held -> r ≠ p ->
    Allocator.getUsableSize scheme s'.world a r = Allocator.getUsableSize scheme s.world a r ∧
      s.SameContents scheme a s' r

end Session

namespace Session.Sound

/-- A block of the pool that no client holds is with the allocator, once. -/
theorem givenBack_pool {o : Nat} (sound : s.Sound pool a rest) (bound : i < pool.bucketsCount)
    (block : pool.IsBlock i o) (gone : pool.pData i + o ∉ s.held) :
    ∃ central place, Division scheme s a i central ∧ place ≠ Place.client ∧
      o ∈ s.keeps a i central place := by
  rcases (SmMalloc.Sound.inv sound).buckets i bound with ⟨central, bucket⟩
  rcases ((sound.custody_places bound bucket).covers o).mp block with ⟨place, member⟩
  refine ⟨central, place, sound.division bound bucket, ?_, member⟩
  rintro rfl
  change o ∈ s.clientOffsets a i at member
  rw [sound.clientOffsets bound] at member
  exact gone ((SmMalloc.Sound.listed_iff sound bound block).mp member)

/-- A block of the pool or of the fallback heap that has moved is given back. -/
theorem givenBack (sound : s.Sound pool a rest) (after : s'.Sound pool a rest)
    (member : p ∈ s.held) (held : s'.held = r :: s.held.erase p) (moved : r ≠ p)
    (served : r ≠ 0)
    (outcome : Reallocated pool a t p bytesCount alignment (s.held.erase p) s.world.toMachine r
      s'.world.toMachine) : s.GivenBack scheme a s' p := by
  have before := sound.returned member
  have represents := (SmMalloc.Sound.inv sound).represents
  have address := sound.readable member
  have readable : p ≠ 0 := by omega
  have gone : p ∉ s'.held := by
    rw [held]
    intro still
    rcases List.mem_cons.mp still with same | other
    · exact moved same.symm
    · exact before.fresh other
  refine ⟨gone, ?_, ?_⟩
  · intro i found bound
    rw [represents.findBucket] at found
    have bound' : i < pool.bucketsCount := represents.bucketsCount ▸ bound
    have pData : (s.world.bucket a i).pData = pool.pData i := represents.pData i bound'
    rcases (SmMalloc.Sound.inv sound).block_of_mem member bound' found address.2 with
      ⟨o, block, rfl⟩
    refine ⟨?_, fun q => ?_⟩
    · rw [pData, Nat.add_sub_cancel_left]
      exact after.givenBack_pool bound' block gone
    · rw [outcome.freed readable served moved q, if_neg (by omega), Nat.add_zero]
  · intro elsewhere
    rw [represents.findBucket, represents.bucketsCount] at elsewhere
    refine ⟨sound.live member elsewhere, outcome.not_live readable served elsewhere, fun q => ?_⟩
    rw [outcome.freed readable served moved q]
    simp only [elsewhere, true_and]

theorem carried (sound : s.Sound pool a rest) (after : s'.Sound pool a rest)
    (member : p ∈ s.held) (positive : 0 < bytesCount) (bytesBound : bytesCount < 2 ^ 64)
    (valid : ValidAlignment alignment) (held : s'.held = r :: s.held.erase p) (served : r ≠ 0)
    (outcome : Reallocated pool a t p bytesCount alignment (s.held.erase p) s.world.toMachine r
      s'.world.toMachine) : s.Carried scheme a s' p r bytesCount := by
  have before := sound.returned member
  have final : SmMalloc.Sound pool a rest s'.world.toMachine (r :: s.held.erase p) := held ▸ after
  have extent := final.extent List.mem_cons_self
  have large : bytesCount ≤ Allocator.getUsableSize scheme s'.world a r := by
    rcases before.reallocated_extent positive bytesBound valid outcome served with
      ⟨size, enough, result⟩
    rw [extent.unique final result]
    exact enough
  refine ⟨large, ?_, ?_, ?_, ?_, held, ?_⟩
  · exact fun k inside => before.reallocated_contents positive bytesBound valid outcome served
      (before.extent List.mem_cons_self) inside
  · exact before.reallocated_inPlace positive outcome served
  · intro moved
    refine ⟨fun old => ?_, sound.givenBack after member held moved served outcome⟩
    exact final.fresh ((List.mem_erase_of_ne moved).mpr old)
  · intro x changed
    rcases before.reallocated_mem positive outcome changed with free | ⟨-, low, high⟩
    · rw [← held] at free
      exact Or.inr (after.freeByte_iff.mpr free)
    · exact Or.inl ⟨low, by omega⟩
  · intro q inside different
    have other : q ∈ s.held.erase p := (List.mem_erase_of_ne different).mpr inside
    have old := before.extent (List.mem_cons_of_mem p other)
    have new := final.extent (List.mem_cons_of_mem r other)
    refine ⟨new.unique final (before.reallocated_others outcome other old), fun k within => ?_⟩
    exact before.reallocated_kept positive bytesBound valid outcome other old
      (Nat.le_add_right _ _) (by omega)

end Session.Sound

/-- In every session a reallocation that is not refused carries the contents
over and gives the old block back once. -/
theorem Session.realloc_carries (integral : scheme ≠ .float)
    (wellFormed : WellFormed scheme _bucketsCount _bucketSizeInBytes)
    (reachable : (Session.system scheme a _bucketsCount _bucketSizeInBytes).Reachable s)
    (member : p ∈ s.held) (positive : 0 < bytesCount) (bytesBound : bytesCount < 2 ^ 64)
    (valid : ValidAlignment alignment)
    (unrefused : (Allocator.realloc scheme s.world a t p bytesCount alignment).2.heap.refusals =
      s.world.heap.refusals) :
    s.Carried scheme a (Session.step scheme a s (.realloc t p bytesCount alignment)) p
      (Allocator.realloc scheme s.world a t p bytesCount alignment).1 bytesCount := by
  rcases Session.reachable_sound wellFormed (Partitioning.sized integral) reachable with
    ⟨pool, rest, -, sound⟩
  have before := sound.returned member
  have address := sound.readable member
  have readable : p ≠ 0 := by omega
  have nonempty : bytesCount ≠ 0 := by omega
  have outcome := (before.inv.realloc (before.ready t) address.1 address.2 valid nonempty
    bytesBound).1
  have served : (Allocator.realloc scheme s.world a t p bytesCount alignment).1 ≠ 0 := by
    intro null
    have refused := outcome.refusals readable null
    omega
  have after := sound.realloc (t := t) (Or.inr member) bytesBound valid
  have held := Session.Sound.realloc_held address.1 nonempty served
  rw [← Session.Sound.realloc_world] at outcome
  exact sound.carried after member positive bytesBound valid held served outcome

theorem Session.realloc_carries_onePage :
    Session.onePageTwo.Carried .piecewise 0
      (Session.step .piecewise 0 Session.onePageTwo (.realloc 0 8208 5000 4)) 8208
      (Allocator.realloc .piecewise Session.onePageTwo.world 0 0 8208 5000 4).1 5000 :=
  Session.realloc_carries (by decide) (onePage_wellFormed (by decide))
    Session.onePageTwo_reachable (by decide +kernel) (by decide) (by decide) valid_four
    (by decide +kernel)

end SmMalloc
