import SmMalloc.Session.Contents
import SmMalloc.Session.LifeCycle

namespace SmMalloc

open Foundation

/-!
# What is given back to the fallback heap

`GenericAllocator::Free` trusts its callers.  A block that is given back twice,
or an address that has never been a block, would go unnoticed: the header in
front of it is believed.  The log of the calls shows that this does not happen.
Replayed from the blocks that are live at the beginning, it arrives at those
that are live at the end, and every block that is given back is live then.
-/

variable {scheme : Partitioning} {pool : Pool scheme} {m m' : Machine} {w w' : World}
variable {s : Session} {a i t p q r : Nat} {bytesCount alignment : Nat} {rest out : List Nat}
variable {_bucketsCount _bucketSizeInBytes : Nat} {life : Lifetime}

namespace GenericAllocator

/-- The blocks that are live after a log of calls, the latest first.  There is
no answer if a block that is not live is given back. -/
def replay (live : List Nat) : List HeapEvent -> Option (List Nat)
  | [] => some live
  | .alloc _ _ q :: earlier =>
      (replay live earlier).map (fun live => if q = 0 then live else q :: live)
  | .free p :: earlier =>
      (replay live earlier).bind (fun live =>
        if p ∈ live then some (live.filter (· != p)) else none)

theorem replay_append (live : List Nat) (later earlier : List HeapEvent) :
    replay live (later ++ earlier) =
      (replay live earlier).bind (fun live => replay live later) := by
  induction later with
  | nil =>
      rw [List.nil_append]
      cases replay live earlier <;> rfl
  | cons event later ih =>
      cases event with
      | alloc bytesCount alignment q =>
          rw [List.cons_append, replay, ih]
          cases replay live earlier <;> rfl
      | free p =>
          rw [List.cons_append, replay, ih]
          cases replay live earlier <;> rfl

/-- The calls that lead from one state of the heap to another give back only live blocks. -/
def Proper (heap heap' : GenericAllocator) : Prop :=
  ∃ log, heap'.events = log ++ heap.events ∧
    replay (heap.live.map Region.base) log = some (heap'.live.map Region.base)

variable {heap heap' heap'' : GenericAllocator}

theorem Proper.refl (heap : GenericAllocator) : heap.Proper heap := ⟨[], rfl, rfl⟩

theorem Proper.trans (before : heap.Proper heap') (after : heap'.Proper heap'') :
    heap.Proper heap'' := by
  rcases before with ⟨earlier, events, live⟩
  rcases after with ⟨later, events', live'⟩
  refine ⟨later ++ earlier, ?_, ?_⟩
  · rw [events', events, List.append_assoc]
  · rw [replay_append, live]
    exact live'

theorem proper_alloc (heap : GenericAllocator) (bytesCount alignment : Nat) :
    heap.Proper (heap.alloc bytesCount alignment).2 := by
  refine ⟨[.alloc bytesCount alignment (heap.answer bytesCount alignment)], rfl, ?_⟩
  by_cases refused : heap.answer bytesCount alignment = 0
  · rw [alloc_live_refused refused, replay]
    simp only [if_pos refused]
    rfl
  · rw [alloc_live refused, replay]
    simp only [if_neg refused]
    rfl

theorem proper_free (live : p = 0 ∨ heap.Live p) : heap.Proper (heap.free p) := by
  by_cases zero : p = 0
  · rw [zero]
    exact Proper.refl heap
  · refine ⟨[.free p], ?_, ?_⟩
    · rw [free, if_neg zero]
      rfl
    · have member : p ∈ heap.live.map Region.base := live.resolve_left zero
      rw [free_live zero, replay, replay, Option.bind_some, if_pos member, List.filter_map]
      rfl

end GenericAllocator

open GenericAllocator (Proper proper_alloc proper_free)

/-! ## Single calls -/

theorem Allocated.proper (allocated : Allocated pool a t bytesCount alignment out m r m') :
    m.heap.Proper m'.heap := by
  cases allocated with
  | block j o bound suitable exhausted taken =>
      rw [taken.heap]
      exact Proper.refl _
  | generic => exact proper_alloc _ _ _

theorem Allocated.still (allocated : Allocated pool a t bytesCount alignment out m r m')
    (live : m.heap.Live q) : m'.heap.Live q :=
  List.map_subset Region.base (fun _ => allocated.live) live

theorem Reallocated.proper
    (reallocated : Reallocated pool a t p bytesCount alignment out m r m')
    (live : pool.bucketsCount ≤ pool.findBucket p -> m.heap.Live p) :
    m.heap.Proper m'.heap := by
  cases reallocated with
  | inPlace => exact Proper.refl _
  | refused allocated => exact allocated.proper
  | lost elsewhere allocated =>
      exact allocated.proper.trans (proper_free (Or.inr (allocated.still (live elsewhere))))
  | fromPool i o bound block address short allocated served released =>
      rw [released.heap]
      exact allocated.proper
  | fromHeap elsewhere allocated =>
      exact allocated.proper.trans (proper_free (Or.inr (allocated.still (live elsewhere))))

namespace Sound

/-- What is outside and not a block of the pool is one of the heap. -/
theorem live_of_elsewhere (sound : Sound pool a rest m (p :: out))
    (elsewhere : pool.bucketsCount ≤ pool.findBucket p) : m.heap.Live p := by
  apply sound.ledger.custody.supplied HeapHolder.client
  exact List.mem_filter.mpr ⟨List.mem_cons_self, decide_eq_true elsewhere⟩

theorem free_proper (sound : Sound pool a rest w.toMachine (p :: out)) (t : Nat) :
    w.heap.Proper (Allocator.free w a t p).heap := by
  have address := sound.addresses p List.mem_cons_self
  rcases sound.inv.outside_cases address.2 with elsewhere | ⟨i, o, bound, block, rfl⟩
  · rw [sound.inv.free_generic address.1 elsewhere]
    exact proper_free (Or.inr (sound.live_of_elsewhere elsewhere))
  · rcases sound.inv.free_block bound block ((sound.ready t).accepting i) with ⟨released, -⟩
    rw [released.heap]
    exact Proper.refl _

end Sound

/-! ## Thread caches -/

namespace World

theorem pushL1_heap (w : World) (t i : Nat) (offset : UInt32) :
    (w.pushL1 t i offset).heap = w.heap := by
  unfold pushL1
  simp only
  split
  · rfl
  · split <;> rfl

theorem returnL1CacheToMaster_heap (w : World) (t i count : Nat) :
    (TlsPoolBucket.returnL1CacheToMaster w t i count).heap = w.heap := by
  unfold TlsPoolBucket.returnL1CacheToMaster
  simp only
  split
  · rfl
  split
  · rw [check_toMachine]
  split
  · rw [fault_toMachine, check_toMachine]
  · change (w.check _ _).heap = w.heap
    rw [check_toMachine]

theorem releaseToCache_heap (useCacheL0 : Bool) (w : World) (t i p : Nat) :
    (Allocator.releaseToCache useCacheL0 w t i p).2.heap = w.heap := by
  unfold Allocator.releaseToCache
  simp only
  split
  · rfl
  split
  · rw [setTls_toMachine, Machine.setTls_heap, check_toMachine, check_toMachine, check_toMachine]
  split
  · rw [pushL1_heap, check_toMachine, check_toMachine, check_toMachine]
  · rw [pushL1_heap, returnL1CacheToMaster_heap, check_toMachine, check_toMachine,
      check_toMachine]

theorem warmupDrain_heap (t i : Nat) : forall (rounds pCurrent : Nat) (w : World),
    (TlsPoolBucket.warmupDrain t i rounds pCurrent w).heap = w.heap := by
  intro rounds
  induction rounds with
  | zero => exact fun _ _ => rfl
  | succ rounds ih =>
      intro pCurrent w
      unfold TlsPoolBucket.warmupDrain
      split
      · rfl
      · rw [ih, check_toMachine, releaseToCache_heap]

end World

namespace Sound

/-- A link written into a block that is outside. -/
theorem write_link (sound : Sound pool a rest w.toMachine (p :: out)) (bound : i < pool.bucketsCount)
    (index : (w.allocs a).getBucketIndex p = i) (pRoot : Nat) :
    Sound pool a rest { w.toMachine with mem := w.mem.write p 8 pRoot } (p :: out) := by
  have address := sound.addresses p List.mem_cons_self
  have found := (sound.inv.represents.getBucketIndex address.2 bound).mp index
  rcases sound.inv.block_of_mem List.mem_cons_self bound found address.2 with ⟨o, block, rfl⟩
  have positive := Pool.element_pos bound
  apply sound.write
  intro x changed
  have inside : pool.pData i + o ≤ x ∧ x < pool.pData i + o + pool.elementSize i := by
    by_contra outside
    exact changed (Memory.write_outside (by omega))
  refine Or.inr ⟨i, o, bound, ?_, inside⟩
  rw [Pool.offsets_cons_block bound block]
  exact List.mem_cons_self

/-- The warm-up gives back what it has just been served. -/
theorem fill_proper (bound : i < pool.bucketsCount) : forall (remaining pRoot : Nat) {w : World}
    {out : List Nat}, Sound pool a rest w.toMachine out ->
    w.heap.Proper (TlsPoolBucket.warmupFill scheme a t i remaining pRoot w).2.heap := by
  have small := Nat.lt_of_lt_of_le bound pool.count_le
  have positive : 0 < scheme.getBucketSizeInBytesByIndex i :=
    Nat.lt_of_lt_of_le (by decide) (pool.sized.size_pos i small)
  intro remaining
  induction remaining with
  | zero => exact fun _ _ _ _ => Proper.refl _
  | succ remaining ih =>
      intro pRoot w out sound
      obtain ⟨after, isAfter⟩ : ∃ after, after = Allocator.allocate scheme false w a t
        (scheme.getBucketSizeInBytesByIndex i) kDefaultTlsCacheAlignment := ⟨_, rfl⟩
      have allocated := (sound.inv.allocate false (t := t) validDefault positive.ne'
        (fun _ => (sound.ready t).usable _)).1
      rw [← isAfter] at allocated
      rw [Filling.fill_opened isAfter]
      by_cases refused : after.1 = 0
      · rw [if_pos refused]
        exact allocated.proper
      have sound' := sound.allocated positive allocated refused
      rw [if_neg refused]
      by_cases index : (after.2.allocs a).getBucketIndex after.1 = i
      · rw [if_neg (not_not.mpr index)]
        exact allocated.proper.trans (ih after.1 (sound'.write_link bound index pRoot))
      · rw [if_pos index]
        exact allocated.proper.trans (sound'.free_proper t)

/-- One round of `CreateThreadCache`. -/
theorem createSlot_proper (sound : Sound pool a rest w.toMachine out) {v : Nat}
    (bound : i < pool.bucketsCount) (idle : (w.tls t i).Idle) (low : v ≠ 1)
    (slots : v + maxCacheItemsCount < 2 ^ 32)
    (served : w.heap.answer (stackElements v * 4) cacheLineSize ≠ 0)
    (warmupOptions : CacheWarmupOptions) :
    w.heap.Proper (w.createSlot scheme a t i v warmupOptions).heap := by
  have attached := (sound.attachSlot bound idle low slots served).1.sound
  have stack : w.heap.Proper (({ w with
      heap := (w.heap.alloc (stackElements v * 4) cacheLineSize).2 } : World).attachSlot t i
        (w.heap.alloc (stackElements v * 4) cacheLineSize).1 (stackElements v) a).heap := by
    rw [World.attachSlot, World.setTls_toMachine, World.check_toMachine]
    exact proper_alloc _ _ _
  rw [World.createSlot, init_eq (w := { w with
    heap := (w.heap.alloc (stackElements v * 4) cacheLineSize).2 }) warmupOptions idle
      (sound.inv.represents.bucketsCount ▸ bound)]
  split
  · exact stack
  · rw [World.check_toMachine, World.warmupDrain_heap]
    exact stack.trans (attached.fill_proper bound _ _)

theorem createFrom_proper (warmupOptions : CacheWarmupOptions) : forall (options : List Nat)
    (i : Nat) (w : World), Sound pool a rest w.toMachine out ->
    (forall j, i ≤ j -> (w.tls t j).Idle) ->
    (forall v, v ∈ options -> v ≠ 1 ∧ v + maxCacheItemsCount < 2 ^ 32) ->
    w.stacksServed scheme a t warmupOptions i options = true ->
    w.heap.Proper (Allocator.createThreadCacheFrom scheme a t warmupOptions i options w).heap := by
  intro options
  induction options with
  | nil => exact fun _ _ _ _ _ _ => Proper.refl _
  | cons v options ih =>
      intro i w sound idles entries served
      have count := sound.inv.represents.bucketsCount
      by_cases past : (w.allocs a).bucketsCount ≤ i
      · rw [Allocator.createThreadCacheFrom, if_pos past]
        exact Proper.refl _
      have opened : Allocator.createThreadCacheFrom scheme a t warmupOptions i (v :: options) w =
          Allocator.createThreadCacheFrom scheme a t warmupOptions (i + 1) options
            (w.createSlot scheme a t i v warmupOptions) := by
        rw [Allocator.createThreadCacheFrom, if_neg past]
        rfl
      rw [World.stacksServed, decide_eq_false past, Bool.false_or, Bool.and_eq_true,
        decide_eq_true_iff] at served
      have entry := entries v List.mem_cons_self
      have bound : i < pool.bucketsCount := by omega
      have here := sound.createSlot bound idles entry.1 entry.2 served.1 warmupOptions
      rw [opened]
      refine (sound.createSlot_proper bound (idles i (Nat.le_refl i)) entry.1 entry.2 served.1
        warmupOptions).trans (ih (i + 1) _ here.sound ?_ ?_ served.2)
      · intro j above
        rw [here.others j (by omega)]
        exact idles j (by omega)
      · exact fun v member => entries v (List.mem_cons_of_mem _ member)

/-- One round of `DestroyThreadCache`: a stack is a live block. -/
theorem destroySlot_proper (sound : Sound pool a rest w.toMachine out) (t i : Nat) :
    w.heap.Proper (w.destroySlot t i).heap := by
  rcases sound.inv.destroy (sound.idle_or_caching t i) with ⟨stack, -, -, done⟩
  change w.heap.Proper ((TlsPoolBucket.destroy w t i).2.heap.free (TlsPoolBucket.destroy w t i).1)
  have heap : (TlsPoolBucket.destroy w t i).2.heap = w.heap := done.heap
  rw [heap, stack]
  apply proper_free
  by_cases none : (w.tls t i).pStorageL1 = 0
  · exact Or.inl none
  · right
    apply sound.ledger.custody.supplied (HeapHolder.stack t i)
    exact mem_stackOf.mpr ⟨rfl, none⟩

theorem destroyFrom_proper : forall (remaining i : Nat) (w : World),
    Sound pool a rest w.toMachine out ->
    w.heap.Proper (Allocator.destroyThreadCacheFrom t remaining i w).heap := by
  intro remaining
  induction remaining with
  | zero => exact fun _ _ _ => Proper.refl _
  | succ remaining ih =>
      intro i w sound
      exact (sound.destroySlot_proper t i).trans (ih (i + 1) _ (sound.destroySlot t i).sound)

theorem destroyThreadCache_proper (sound : Sound pool a rest w.toMachine out) (t : Nat) :
    w.heap.Proper (Allocator.destroyThreadCache w t).heap := by
  unfold Allocator.destroyThreadCache
  exact sound.destroyFrom_proper maxBucketCount 0 w

end Sound

/-! ## Whole lifetimes -/

namespace Session.Sound

theorem alloc_proper (sound : s.Sound pool a rest) (valid : ValidAlignment alignment) :
    s.world.heap.Proper (Allocator.alloc scheme s.world a t bytesCount alignment).2.heap := by
  by_cases empty : bytesCount = 0
  · rw [empty, alloc_empty valid]
    exact Proper.refl _
  · exact (SmMalloc.Sound.request sound t valid empty).proper

theorem free_proper (sound : s.Sound pool a rest) (returnable : s.Returnable p) :
    s.world.heap.Proper (Allocator.free s.world a t p).heap := by
  rcases returnable with small | member
  · rw [free_empty small]
    exact Proper.refl _
  · exact (sound.returned member).free_proper t

theorem realloc_proper (sound : s.Sound pool a rest) (returnable : s.Returnable p)
    (bytesBound : bytesCount < 2 ^ 64) (valid : ValidAlignment alignment) :
    s.world.heap.Proper (Allocator.realloc scheme s.world a t p bytesCount alignment).2.heap := by
  by_cases small : p ≤ kMaxValidAlignment
  · rw [realloc_empty small]
    exact sound.alloc_proper valid
  have returned := sound.returned (returnable.resolve_left small)
  by_cases empty : bytesCount = 0
  · rw [empty, realloc_zero (Nat.lt_of_not_le small)]
    exact sound.free_proper returnable
  · exact (returned.relocation t valid empty bytesBound).proper returned.live_of_elsewhere

theorem step_proper {op : Op} (sound : s.Sound pool a rest) (allowed : Allowed scheme a s op) :
    s.world.heap.Proper (Session.step scheme a s op).world.heap := by
  cases op with
  | alloc t bytesCount alignment => exact sound.alloc_proper allowed.2
  | free t p => exact sound.free_proper allowed
  | realloc t p bytesCount alignment =>
      rw [realloc_world]
      exact sound.realloc_proper allowed.1 allowed.2.1 allowed.2.2
  | createThreadCache t warmupOptions options =>
      rcases allowed with ⟨cacheless, length, entries, served⟩
      have checked : s.world.check .createThreadCacheOptions
          (options.length ≤ (s.world.allocs a).bucketsCount) = s.world :=
        World.check_true _ (decide_eq_true length)
      change s.world.heap.Proper
        (Allocator.createThreadCache scheme s.world a t warmupOptions options).heap
      rw [Allocator.createThreadCache, checked]
      exact SmMalloc.Sound.createFrom_proper warmupOptions options 0 _ sound
        (fun j _ => sound.idle cacheless j)
        (fun v member => by have := entries v member; omega) served
  | destroyThreadCache t => exact SmMalloc.Sound.destroyThreadCache_proper sound t
  | write p k v => exact Proper.refl _

/-- In a session the heap gets back only live blocks. -/
theorem run_proper {ops : List Op} : forall {s : Session}, s.Sound pool a rest ->
    (system scheme a _bucketsCount _bucketSizeInBytes).Permitted s ops ->
    s.world.heap.Proper
      ((system scheme a _bucketsCount _bucketSizeInBytes).run s ops).world.heap := by
  induction ops with
  | nil => exact fun _ _ => Proper.refl _
  | cons op ops ih =>
      intro s sound permitted
      exact (sound.step_proper permitted.1).trans (ih (sound.step permitted.1) permitted.2)

end Session.Sound

namespace Lifetime

/-- The object and the buffer are asked for. -/
theorem Lives.created_proper (lives : life.Lives scheme w) :
    w.heap.Proper (life.created scheme w).2.heap := by
  rw [(created_initialised lives.wellFormed).heap, ready_machine]
  exact (proper_alloc _ _ _).trans (proper_alloc _ _ _)

/-- The buffer and the object are given back. -/
theorem destroyed_proper {last : Session} (sound : Session.Sound pool a (a :: rest) last)
    (object : a ≠ 0) : last.world.heap.Proper (smAllocatorDestroy last.world a).heap := by
  have custody := (SmMalloc.Sound.ledger sound).custody
  have inPool : pool.base ∈ last.world.heapShares pool (a :: rest) last.held HeapHolder.pool :=
    List.mem_singleton.mpr rfl
  have inRest : a ∈ last.world.heapShares pool (a :: rest) last.held HeapHolder.rest :=
    List.mem_cons_self
  have readable := pool.base_readable
  have different : a ≠ pool.base := by
    rintro rfl
    cases custody.holder_unique inRest inPool
  rw [destroyed_heap sound object]
  refine (proper_free (Or.inr (custody.supplied _ inPool))).trans (proper_free (Or.inr ?_))
  exact (GenericAllocator.live_free (by omega) a).mpr ⟨custody.supplied _ inRest, different⟩

/-- From the creation of an allocator to its destruction, whatever happens in
between, the fallback heap gets back only blocks that it has served and that
have not been given back before. -/
theorem frees_live (integral : scheme ≠ .float) (quiet : w.Quiet)
    (lives : life.Lives scheme w) : w.heap.Proper (life.next scheme w).heap := by
  rcases lives.created_sound quiet (Partitioning.sized integral) with ⟨pool, sound⟩
  have session := sound.run_proper lives.permitted
  exact (lives.created_proper.trans session).trans
    (destroyed_proper (sound.run lives.permitted) lives.object)

/-- A cache, a large block that is moved, and both given back. -/
def roundTrip : Lifetime :=
  ⟨1024, 1, 4096, [.createThreadCache 0 .hot [3], .alloc 1 4000 4, .realloc 1 32768 6000 4,
    .free 0 40960, .destroyThreadCache 0]⟩

theorem roundTrip_lives : roundTrip.Lives .piecewise (World.initial everyOtherPage) where
  wellFormed := onePage_wellFormed (by decide)
  object := by decide
  buffer := by decide
  permitted := by
    refine ⟨⟨fun _ => rfl, by decide +kernel, by decide, by decide +kernel⟩,
      ⟨by decide, valid_four⟩, ⟨Or.inr ?_, by decide, valid_four⟩, Or.inr ?_, trivial, trivial⟩
    · decide +kernel
    · decide +kernel

theorem frees_live_roundTrip : (World.initial everyOtherPage).heap.Proper
    (roundTrip.next .piecewise (World.initial everyOtherPage)).heap :=
  frees_live (by decide) (World.initial_quiet everyOtherPage) roundTrip_lives

end Lifetime

end SmMalloc
