import SmMalloc.Session.Caches

namespace SmMalloc

open Foundation

/-!
# Allocators come and go

A lifetime is the creation of an allocator, a session with it, and its
destruction.  `_sm_allocator_destroy` gives back the buffer and the object; it
knows nothing of the stacks of thread caches, nor of large blocks that clients
still have.  These, and only these, stay on the fallback heap.  So a program
that destroys its caches in time may create and destroy as many allocators as
it likes.
-/

variable {scheme : Partitioning} {w : World} {s : Session} {a q : Nat}

/-- What an allocator is created with, and what it is used for. -/
structure Lifetime where
  sizeofAllocator : Nat
  bucketsCount : Nat
  bucketSizeInBytes : Nat
  ops : List Op

namespace Lifetime

variable (scheme) (life : Lifetime) (w : World)

/-- `_sm_allocator_create` -/
def created : Nat × World :=
  smAllocatorCreate scheme life.sizeofAllocator w life.bucketsCount life.bucketSizeInBytes

/-- What `Init` finds: the object has been allocated and constructed. -/
def ready : World :=
  { w with heap := (w.heap.alloc life.sizeofAllocator cacheLineSize).2 }.construct
    (w.heap.alloc life.sizeofAllocator cacheLineSize).1

/-- The session, from the creation on. -/
def sessions : Transition Session Op :=
  Session.system scheme (life.created scheme w).1 life.bucketsCount life.bucketSizeInBytes

/-- The end of the session. -/
def last : Session := (life.sessions scheme w).run ⟨(life.created scheme w).2, []⟩ life.ops

/-- After the destruction. -/
def next : World := smAllocatorDestroy (life.last scheme w).world (life.created scheme w).1

/-- The creation is served, and the session permitted. -/
structure Lives : Prop where
  wellFormed : WellFormed scheme life.bucketsCount life.bucketSizeInBytes
  object : w.heap.answer life.sizeofAllocator cacheLineSize ≠ 0
  buffer : (w.heap.alloc life.sizeofAllocator cacheLineSize).2.answer
    (bufferBytes life.bucketsCount life.bucketSizeInBytes) kMaxValidAlignment ≠ 0
  permitted : (life.sessions scheme w).Permitted ⟨(life.created scheme w).2, []⟩ life.ops

/-- Every cache that is created is destroyed, and at the end no client has a
block of the fallback heap. -/
structure Settled : Prop where
  destroyed : forall t, Session.DestroysCache t life.ops
  returned : forall p, p ∈ (life.last scheme w).held ->
    ((life.last scheme w).world.allocs (life.created scheme w).1).findBucket p <
      ((life.last scheme w).world.allocs (life.created scheme w).1).bucketsCount

end Lifetime

/-- Between two lifetimes. -/
structure World.Quiet (w : World) : Prop where
  tls : forall t i, (w.tls t i).Idle
  apart : w.heap.live.Pairwise Region.Apart

variable {life : Lifetime} {pool : Pool scheme} {rest out : List Nat} {m : Machine}

namespace Lifetime

theorem ready_machine (life : Lifetime) (w : World) : (life.ready w).toMachine = { w.toMachine with
    allocs := Function.update w.allocs (w.heap.alloc life.sizeofAllocator cacheLineSize).1
      Allocator.constructed
    heap := (w.heap.alloc life.sizeofAllocator cacheLineSize).2 } :=
  World.construct_toMachine _ _

theorem created_initialised (wellFormed : WellFormed scheme life.bucketsCount life.bucketSizeInBytes) :
    Initialised scheme life.bucketsCount life.bucketSizeInBytes (life.created scheme w).1
      (life.ready w) (life.created scheme w).2 := by
  apply init_spec scheme wellFormed.arguments
  rw [ready_machine]
  change (Function.update w.allocs (w.heap.alloc life.sizeofAllocator cacheLineSize).1
    Allocator.constructed (w.heap.alloc life.sizeofAllocator cacheLineSize).1).bucketsCount = 0
  rw [Function.update_self]
  rfl

/-- The session begins with what was live before, and the allocator object. -/
theorem Lives.created_sound (lives : life.Lives scheme w) (quiet : w.Quiet)
    (sized : scheme.Sized) : ∃ pool : Pool scheme,
      Session.Sound pool (life.created scheme w).1
        ((life.created scheme w).1 :: w.heap.live.map Region.base)
        ⟨(life.created scheme w).2, []⟩ := by
  have machine := ready_machine life w
  have live := GenericAllocator.alloc_live lives.object
  have fresh : Fresh (life.created scheme w).1 (life.ready w) := by
    refine ⟨?_, ?_, ?_⟩
    · rw [machine]
      exact Function.update_self _ _ _
    · rw [machine]
      exact quiet.tls
    · rw [machine, live]
      exact List.pairwise_cons.mpr
        ⟨(GenericAllocator.serves_of_answer lives.object).2.2.2.2, quiet.apart⟩
  have served : (life.ready w).heap.answer (bufferBytes life.bucketsCount life.bucketSizeInBytes)
      kMaxValidAlignment ≠ 0 := by
    rw [machine]
    exact lives.buffer
  rcases lives.wellFormed.sound sized fresh served with ⟨pool, -, sound⟩
  refine ⟨pool, ?_⟩
  rw [machine, live] at sound
  exact sound

/-- At its beginning no thread has a cache. -/
theorem created_cacheless (quiet : w.Quiet)
    (wellFormed : WellFormed scheme life.bucketsCount life.bucketSizeInBytes) (t : Nat) :
    Session.Cacheless ⟨(life.created scheme w).2, []⟩ t := by
  intro i
  change ((life.created scheme w).2.tls t i).pBucket = none
  rw [(created_initialised wellFormed).tls, ready_machine]
  exact (quiet.tls t i).pBucket

/-- And so it ends. -/
theorem Lives.last_sound (lives : life.Lives scheme w) (quiet : w.Quiet)
    (sized : scheme.Sized) : ∃ pool : Pool scheme,
      Session.Sound pool (life.created scheme w).1
        ((life.created scheme w).1 :: w.heap.live.map Region.base) (life.last scheme w) := by
  rcases lives.created_sound quiet sized with ⟨pool, sound⟩
  exact ⟨pool, sound.run lives.permitted⟩

end Lifetime

theorem mem_stackOf {self : TlsPoolBucket} :
    q ∈ stackOf self <-> self.pStorageL1 = q ∧ q ≠ 0 := by
  unfold stackOf
  split
  next none => simp only [List.not_mem_nil, none, false_iff, not_and, not_not]; exact Eq.symm
  next some =>
    rw [List.mem_singleton]
    constructor
    · rintro rfl
      exact ⟨rfl, some⟩
    · exact fun both => both.1.symm

/-- Without the buffer and the object, the rest of the ledger is left. -/
theorem Ledger.left (ledger : Ledger pool (a :: rest) m out) (object : a ≠ 0) :
    ((m.heap.free pool.base).free a).Live q <-> q ∈ rest ∨
      (∃ t i, (m.tls t i).pStorageL1 = q ∧ q ≠ 0) ∨ q ∈ pool.elsewhere out := by
  have custody := ledger.custody
  have base : pool.base ≠ 0 := by
    have readable := pool.base_readable
    omega
  have inPool : pool.base ∈ m.heapShares pool (a :: rest) out HeapHolder.pool :=
    List.mem_singleton.mpr rfl
  have inRest : a ∈ m.heapShares pool (a :: rest) out HeapHolder.rest := List.mem_cons_self
  rw [GenericAllocator.live_free object, GenericAllocator.live_free base, custody.covers]
  constructor
  · rintro ⟨⟨⟨holder, member⟩, notBase⟩, notObject⟩
    cases holder with
    | pool => exact absurd (List.mem_singleton.mp member) notBase
    | stack t i => exact Or.inr (Or.inl ⟨t, i, mem_stackOf.mp member⟩)
    | client => exact Or.inr (Or.inr member)
    | rest => exact Or.inl (List.mem_of_ne_of_mem notObject member)
  · -- a block of one holder is neither the buffer nor the object
    have kept : forall holder, holder ≠ .pool -> holder ≠ .rest ->
        q ∈ m.heapShares pool (a :: rest) out holder ->
        ((∃ holder, q ∈ m.heapShares pool (a :: rest) out holder) ∧ q ≠ pool.base) ∧ q ≠ a := by
      intro holder notPool notRest member
      refine ⟨⟨⟨holder, member⟩, ?_⟩, ?_⟩
      · rintro rfl
        exact notPool (custody.holder_unique member inPool)
      · rintro rfl
        exact notRest (custody.holder_unique member inRest)
    rintro (member | ⟨t, i, stack⟩ | member)
    · have shared : q ∈ m.heapShares pool (a :: rest) out HeapHolder.rest :=
        List.mem_cons_of_mem a member
      refine ⟨⟨⟨HeapHolder.rest, shared⟩, ?_⟩, ?_⟩
      · rintro rfl
        cases custody.holder_unique shared inPool
      · rintro rfl
        exact (List.nodup_cons.mp (custody.nodup HeapHolder.rest)).1 member
    · exact kept (.stack t i) (by simp) (by simp) (mem_stackOf.mpr stack)
    · exact kept .client (by simp) (by simp) member

namespace Lifetime

variable {last : Session}

theorem destroyed_heap (sound : Session.Sound pool a rest last) (object : a ≠ 0) :
    (smAllocatorDestroy last.world a).heap = (last.world.heap.free pool.base).free a := by
  have represents := SmMalloc.Sound.inv sound |>.represents
  have opened : smAllocatorDestroy last.world a = { { last.world with
      heap := last.world.heap.free (last.world.allocs a).pBuffer } with
      heap := (last.world.heap.free (last.world.allocs a).pBuffer).free a } := if_neg object
  rw [opened, represents.pBuffer]

/-- The destruction of an allocator takes its buffer and its object, and nothing else. -/
theorem destroyed (sound : Session.Sound pool a (a :: rest) last) (object : a ≠ 0) :
    (smAllocatorDestroy last.world a).heap.live.Pairwise Region.Apart ∧
      forall q, (smAllocatorDestroy last.world a).heap.Live q <-> q ∈ rest ∨
        (∃ t i, (last.world.tls t i).pStorageL1 = q ∧ q ≠ 0) ∨ q ∈ pool.elsewhere last.held := by
  have ledger := SmMalloc.Sound.ledger sound
  rw [destroyed_heap sound object]
  exact ⟨GenericAllocator.apart_free (GenericAllocator.apart_free ledger.apart _) _,
    fun _ => ledger.left object⟩

/-- What stays on the fallback heap when an allocator is destroyed: what was
there before, the stacks of the cache buckets that still have one, and the
blocks that the fallback heap has served and clients still hold. -/
theorem left_behind (integral : scheme ≠ .float) (quiet : w.Quiet)
    (lives : life.Lives scheme w) :
    let a := (life.created scheme w).1
    let s := life.last scheme w
    (life.next scheme w).heap.live.Pairwise Region.Apart ∧
      forall q, (life.next scheme w).heap.Live q <-> w.heap.Live q ∨
        (∃ t i, (s.world.tls t i).pStorageL1 = q ∧ q ≠ 0) ∨
        (q ∈ s.held ∧ (s.world.allocs a).bucketsCount ≤ (s.world.allocs a).findBucket q) := by
  intro a s
  rcases lives.last_sound quiet (Partitioning.sized integral) with ⟨pool, sound⟩
  have represents := SmMalloc.Sound.inv sound |>.represents
  rcases destroyed sound lives.object with ⟨apart, live⟩
  refine ⟨apart, fun q => (live q).trans ?_⟩
  have count : (s.world.allocs a).bucketsCount = pool.bucketsCount := represents.bucketsCount
  have found : (s.world.allocs a).findBucket q = pool.findBucket q := represents.findBucket q
  rw [count, found]
  simp only [Pool.elsewhere, List.mem_filter, decide_eq_true_eq]
  rfl

theorem World.initial_quiet (answers : Nat -> Nat) : (World.initial answers).Quiet where
  tls := fun _ _ => ⟨rfl, rfl, rfl, rfl, rfl, rfl⟩
  apart := List.Pairwise.nil

/-- Thread 0 keeps its cache, and thread 1 a large block. -/
def careless : Lifetime :=
  ⟨1024, 1, 4096, [.createThreadCache 0 .cold [3], .alloc 1 16 4, .alloc 1 10000 4]⟩

theorem careless_lives : careless.Lives .piecewise (World.initial everyOtherPage) where
  wellFormed := onePage_wellFormed (by decide)
  object := by decide
  buffer := by decide
  permitted := by
    refine ⟨⟨?_, by decide +kernel, by decide, by decide +kernel⟩, ⟨by decide, valid_four⟩,
      ⟨by decide, valid_four⟩, trivial⟩
    intro i
    rfl

theorem left_behind_careless :
    let w := World.initial everyOtherPage
    let s := careless.last .piecewise w
    (careless.next .piecewise w).heap.live.Pairwise Region.Apart ∧
      forall q, (careless.next .piecewise w).heap.Live q <-> w.heap.Live q ∨
        (∃ t i, (s.world.tls t i).pStorageL1 = q ∧ q ≠ 0) ∨
        (q ∈ s.held ∧ (s.world.allocs 8192).bucketsCount ≤ (s.world.allocs 8192).findBucket q) := by
  have handle : (careless.created .piecewise (World.initial everyOtherPage)).1 = 8192 := by
    decide +kernel
  have left := left_behind (by decide) (World.initial_quiet everyOtherPage) careless_lives
  simp only [handle] at left
  exact left

/-- A settled lifetime leaves nothing behind. -/
theorem Settled.next (settled : life.Settled scheme w) (integral : scheme ≠ .float)
    (quiet : w.Quiet) (lives : life.Lives scheme w) :
    (life.next scheme w).Quiet ∧
      ((life.next scheme w).heap.live.map Region.base).Perm (w.heap.live.map Region.base) := by
  rcases lives.created_sound quiet (Partitioning.sized integral) with ⟨pool, atStart⟩
  have sound : (life.last scheme w).Sound pool _ _ := atStart.run lives.permitted
  have cacheless : forall t, (life.last scheme w).Cacheless t := fun t =>
    atStart.run_cacheless (created_cacheless quiet lives.wellFormed t) lives.permitted
      (settled.destroyed t)
  rcases Lifetime.destroyed sound lives.object with ⟨apart, live⟩
  have represents := SmMalloc.Sound.inv sound |>.represents
  have idle : forall t i, ((life.last scheme w).world.tls t i).Idle :=
    fun t i => sound.idle (cacheless t) i
  have tls : (life.next scheme w).tls = (life.last scheme w).world.tls := by
    unfold Lifetime.next smAllocatorDestroy
    split <;> rfl
  refine ⟨⟨fun t i => tls ▸ idle t i, apart⟩, ?_⟩
  apply (List.perm_ext_iff_of_nodup (Region.bases_nodup apart)
    (Region.bases_nodup quiet.apart)).mpr
  intro q
  refine (live q).trans (or_iff_left ?_)
  rintro (⟨t, i, stack, nonzero⟩ | member)
  · exact nonzero (stack.symm.trans (idle t i).pStorageL1)
  · rcases List.mem_filter.mp member with ⟨held, outside⟩
    have inside := settled.returned q held
    rw [represents.findBucket, represents.bucketsCount] at inside
    exact Nat.not_lt_of_le (of_decide_eq_true outside) inside

/-- Programs that create and destroy allocators, one after the other. -/
def program (scheme : Partitioning) : Transition World Lifetime where
  start := World.Quiet
  allowed := fun w life => life.Lives scheme w ∧ life.Settled scheme w
  next := fun w life => life.next scheme w

/-- However many allocators such a program has had, the fallback heap is as it
was before the first of them. -/
theorem nothing_leaks (integral : scheme ≠ .float) {lives : List Lifetime} : forall {w : World},
    (program scheme).start w -> (program scheme).Permitted w lives ->
    (((program scheme).run w lives).heap.live.map Region.base).Perm
      (w.heap.live.map Region.base) := by
  induction lives with
  | nil => exact fun _ _ => List.Perm.refl _
  | cons life lives ih =>
      intro w quiet permitted
      have once := permitted.1.2.next integral quiet permitted.1.1
      exact (ih once.1 permitted.2).trans once.2

/-- A cache and the large block at `p` are given back; a block of the pool is
still held at the end. -/
def careful (p : Nat) : Lifetime :=
  ⟨1024, 1, 4096, [.createThreadCache 0 .hot [3], .alloc 1 16 4, .alloc 1 10000 4, .free 1 p,
    .destroyThreadCache 0]⟩

theorem careful_destroys (p t : Nat) : Session.DestroysCache t (careful p).ops :=
  ⟨fun created => ⟨.destroyThreadCache 0, by simp, created⟩, False.elim, False.elim, False.elim,
    False.elim, trivial⟩

theorem careful_lives :
    (program .piecewise).Permitted (World.initial everyOtherPage) [careful 32768, careful 65536] := by
  have wellFormed : WellFormed .piecewise 1 4096 := onePage_wellFormed (by decide)
  have quiet := World.initial_quiet everyOtherPage
  have first : (careful 32768).Lives .piecewise (World.initial everyOtherPage) := by
    refine ⟨wellFormed, by decide, by decide, ⟨created_cacheless quiet wellFormed 0,
      by decide +kernel, by decide, by decide +kernel⟩, ⟨by decide, valid_four⟩,
      ⟨by decide, valid_four⟩, Or.inr ?_, trivial, trivial⟩
    decide +kernel
  have settled : (careful 32768).Settled .piecewise (World.initial everyOtherPage) :=
    ⟨careful_destroys 32768, by decide +kernel⟩
  have quiet' := (settled.next (by decide) quiet first).1
  refine ⟨⟨first, settled⟩, ⟨⟨wellFormed, by decide +kernel, by decide +kernel,
    ⟨created_cacheless quiet' wellFormed 0, by decide +kernel, by decide, by decide +kernel⟩,
    ⟨by decide, valid_four⟩, ⟨by decide, valid_four⟩, Or.inr ?_, trivial, trivial⟩,
    careful_destroys 65536, by decide +kernel⟩, trivial⟩
  decide +kernel

theorem nothing_leaks_twice :
    (((program .piecewise).run (World.initial everyOtherPage)
      [careful 32768, careful 65536]).heap.live.map Region.base).Perm [] :=
  nothing_leaks (by decide) (World.initial_quiet everyOtherPage) careful_lives

end Lifetime

end SmMalloc
