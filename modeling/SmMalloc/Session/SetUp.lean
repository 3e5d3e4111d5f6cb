import SmMalloc.Pool.Refusal
import SmMalloc.Pool.Routing
import SmMalloc.Session.Run

namespace SmMalloc

open Foundation

/-!
# Running out of memory while setting up

The fallback heap may refuse the allocator object, the buffer, and the stack of
any cache bucket, in any combination.  Neither `_sm_allocator_create` nor
`CreateThreadCache` looks at what it is given, so a set-up survives exactly the
refusals that cannot be noticed: a stack of an entry 0 is never stored to, and
for no buckets at all there is no buffer.  Pointers handed to `Free` may be
wrong here, and clients may have written anywhere: the addresses that the
allocator follows do not depend on either.
-/

variable {scheme : Partitioning} {w : World} {s : Session} {a t i : Nat}

/-! ## What is to be survived -/

/-- The cache bucket behaves as if there were none: it hands nothing out and
takes nothing in. -/
def World.CacheAbsent (w : World) (t i : Nat) : Prop :=
  Allocator.allocFromCache w t i = (0, w) ∧
    forall p, Allocator.releaseToCache true w t i p = (false, w)

/-- The result of a request is the answer of the fallback heap, or has been
derived from the first byte of a bucket, which is not null. -/
inductive Sourced (w : World) (a t bytesCount alignment p : Nat) : Prop
  | heap (answer : p = w.heap.answer bytesCount alignment)
  | list (i : Nat) (offset : UInt32) (base : (w.bucket a i).pData ≠ 0)
      (address : p = (w.bucket a i).pData + offset.toNat)
  | cache (i offset : Nat) (base : (w.tls t i).pBucketData ≠ 0)
      (address : p = (w.tls t i).pBucketData + offset)

/-- No store has gone through a null pointer and none will, no request returns
an address derived from one, and cache buckets without a stack are absent. -/
structure World.Survives (scheme : Partitioning) (a : Nat) (w : World) : Prop where
  unharmed : Fault.storeThroughNull ∉ w.faults
  lists : forall i, i < (w.allocs a).bucketsCount -> (w.bucket a i).pData ≠ 0
  caches : forall t i, (w.tls t i).maxElementsCount ≠ 0 ∨ (w.tls t i).getElementsCount ≠ 0 ->
    (w.tls t i).pBucketData ≠ 0
  blocks : forall t bytesCount alignment, 0 < bytesCount -> ValidAlignment alignment ->
    Sourced w a t bytesCount alignment (Allocator.alloc scheme w a t bytesCount alignment).1
  absent : forall t i, (w.tls t i).pStorageL1 = 0 -> w.CacheAbsent t i

/-- An open cache bucket takes in what it is given. -/
theorem releaseToCache_open (opens : (w.tls t i).maxElementsCount ≠ 0) (useCacheL0 : Bool)
    (p : Nat) : (Allocator.releaseToCache useCacheL0 w t i p).1 = true := by
  unfold Allocator.releaseToCache
  simp only [if_neg opens]
  split
  · rfl
  · split <;> rfl

theorem World.CacheAbsent.closed (absent : w.CacheAbsent t i) :
    (w.tls t i).maxElementsCount = 0 := by
  by_contra opens
  have accepted := releaseToCache_open opens true 0
  rw [absent.2 0] at accepted
  cases accepted

/-- A closed and empty cache bucket is as good as none. -/
theorem World.CacheAbsent.of_closed (closed : (w.tls t i).maxElementsCount = 0)
    (empty : (w.tls t i).getElementsCount = 0) : w.CacheAbsent t i := by
  unfold TlsPoolBucket.getElementsCount at empty
  have none0 : ¬ (w.tls t i).numElementsL0 > 0 := by omega
  have none1 : ¬ (w.tls t i).numElementsL1 > 0 := by omega
  constructor
  · simp only [Allocator.allocFromCache, if_neg none0, if_neg none1]
  · intro p
    simp only [Allocator.releaseToCache, if_pos closed]

/-- An allocator that can be used survives. -/
theorem World.Standing.survives (standing : w.Standing a) : w.Survives scheme a where
  unharmed := standing.unharmed
  lists := standing.lists
  caches := fun t i opens => ((standing.fitted t i).opened opens).2.1
  blocks := by
    intro t bytesCount alignment positive valid
    have searchable : Searchable scheme w.toMachine a t bytesCount alignment :=
      ⟨standing.count_le, fun j bound => standing.lists j bound,
        fun serves => ((standing.fitted t _).opened (Or.inr serves.2)).2.1⟩
    have searched := allocate_searched true positive valid searchable
    change Searched scheme true w a t bytesCount alignment
      (Allocator.alloc scheme w a t bytesCount alignment).1 _ at searched
    cases searched with
    | cached serves taken _ =>
        rcases taken with ⟨o, slot, address, -, -⟩
        exact Sourced.cache _ o ((standing.fitted t _).opened (Or.inr serves.2)).2.1 address
    | popped j _ offered _ taken _ =>
        have bound := Nat.lt_of_lt_of_le offered.below (Nat.min_le_right _ _)
        exact Sourced.list j _ (standing.lists j bound) taken.head
    | generic _ _ answer _ _ => exact Sourced.heap answer
  absent := by
    intro t i null
    rcases standing.fitted t i with ⟨closed, empty⟩ | ⟨stored, -, -⟩
    · exact World.CacheAbsent.of_closed closed empty
    · exact absurd null stored

/-! ## Creating the allocator -/

/-- A call of `_sm_allocator_create` in world `w`. -/
structure Creation where
  scheme : Partitioning
  sizeofAllocator : Nat
  w : World
  bucketsCount : Nat
  bucketSizeInBytes : Nat

namespace Creation

variable {c : Creation}

def result (c : Creation) : Nat × World :=
  smAllocatorCreate c.scheme c.sizeofAllocator c.w c.bucketsCount c.bucketSizeInBytes

def handle (c : Creation) : Nat := c.result.1

/-- The fallback heap serves the allocator object and, for at least one bucket, the buffer. -/
def Served (c : Creation) : Prop :=
  c.w.heap.answer c.sizeofAllocator cacheLineSize ≠ 0 ∧ (0 < c.bucketsCount ->
    (c.w.heap.alloc c.sizeofAllocator cacheLineSize).2.answer
      (requestedBytes c.bucketsCount c.bucketSizeInBytes) kMaxValidAlignment ≠ 0)

/-- The world in which `Init` is called. -/
theorem opened (c : Creation) : ∃ ready : World,
    c.result.2 = Allocator.init c.scheme ready c.handle c.bucketsCount c.bucketSizeInBytes ∧
      ready.tls = c.w.tls ∧ ready.heap = (c.w.heap.alloc c.sizeofAllocator cacheLineSize).2 ∧
      (ready.allocs c.handle).bucketsCount = 0 ∧
      (ready.Harmed <-> c.w.Harmed ∨ c.w.heap.answer c.sizeofAllocator cacheLineSize = 0) := by
  refine ⟨World.construct _ c.handle, rfl, ?_, ?_, ?_, ?_⟩
  · rw [World.construct_toMachine]
  · rw [World.construct_toMachine]
  · rw [World.construct_toMachine]
    simp only [Function.update_self]
    rfl
  · change Fault.storeThroughNull ∈ (World.construct _ c.handle).faults <->
      c.w.Harmed ∨ c.handle = 0
    rw [World.construct_faults]
    by_cases null : c.handle = 0
    · rw [if_pos null]
      exact iff_of_true List.mem_cons_self (Or.inr null)
    · rw [if_neg null]
      exact ⟨Or.inl, fun either => either.resolve_right null⟩

/-- The creation makes a bad store exactly when it is not served. -/
theorem harmed_iff (unharmed : ¬ c.w.Harmed) : c.result.2.Harmed <-> ¬ c.Served := by
  rcases c.opened with ⟨ready, opened, -, heap, fresh, harmed⟩
  rw [opened, Served, not_and_or, not_not]
  by_cases none : c.bucketsCount = 0
  · have notYet : ¬ (ready.allocs c.handle).bucketsCount > 0 := by omega
    have stays : (Allocator.init c.scheme ready c.handle c.bucketsCount
        c.bucketSizeInBytes).Harmed <-> ready.Harmed := by
      simp only [Allocator.init, if_neg notYet, if_pos none, World.Harmed, World.check_faults]
    rw [stays, harmed, or_iff_right unharmed]
    exact ⟨Or.inl, fun either => either.resolve_right (fun refused =>
      refused (fun positive => absurd none (Nat.ne_of_gt positive)))⟩
  · have positive := Nat.pos_of_ne_zero none
    rw [World.Harmed, init_stores c.scheme c.bucketSizeInBytes fresh positive, heap]
    change ready.Harmed ∨ _ <-> _
    rw [harmed, or_iff_right unharmed]
    exact or_congr_right ⟨fun null served => served positive null,
      fun refused => by_contra (fun served => refused (fun _ => served))⟩

/-- A creation that is served leaves an allocator that can be used. -/
theorem Served.standing (served : c.Served) (fitted : forall u j, (c.w.tls u j).Fitted)
    (unharmed : ¬ c.w.Harmed) : c.result.2.Standing c.handle := by
  have safe : ¬ c.result.2.Harmed := fun harmed => (harmed_iff unharmed).mp harmed served
  rcases c.opened with ⟨ready, opened, tls, heap, fresh, -⟩
  rw [opened] at safe ⊢
  by_cases none : c.bucketsCount = 0
  · have notYet : ¬ (ready.allocs c.handle).bucketsCount > 0 := by omega
    simp only [Allocator.init, if_neg notYet, if_pos none] at safe ⊢
    refine ⟨?_, ?_, ?_, safe⟩
    · rw [World.check_toMachine, tls]
      exact fitted
    · intro i bound
      rw [World.check_toMachine, fresh] at bound
      exact absurd bound (Nat.not_lt_zero i)
    · rw [World.check_toMachine, fresh]
      exact Nat.zero_le _
  · have routed := init_routed c.scheme c.bucketSizeInBytes fresh (Nat.pos_of_ne_zero none)
    have buffer := served.2 (Nat.pos_of_ne_zero none)
    rw [← heap, ← routed.pBuffer] at buffer
    refine ⟨?_, ?_, ?_, safe⟩
    · rw [routed.tls, tls]
      exact fitted
    · intro i bound
      rw [routed.bucketsCount] at bound
      have pData := (routed.buckets i bound).pData
      omega
    · rw [routed.bucketsCount]
      exact Nat.min_le_right _ _

/-! ## What follows the creation -/

def session (c : Creation) : Session := ⟨c.result.2, []⟩

/-- What a program does with a handle, unless it is null: threads create caches, with any
options, clients allocate, write wherever they like and free whatever they like. -/
def setUp (c : Creation) : Transition Session Op where
  start := fun s => s = c.session
  allowed := fun _ op => c.handle ≠ 0 ∧
    match op with
    | .alloc _ _ alignment => ValidAlignment alignment
    | .free _ _ => True
    | .createThreadCache _ _ _ => True
    | .write _ _ _ => True
    | .realloc _ _ _ _ => False
    | .destroyThreadCache _ => False
  next := Session.step c.scheme c.handle

/-- A new thread cache gets a stack for every entry that is not 0. -/
def StacksSuffice (c : Creation) (s : Session) : Op -> Prop
  | .createThreadCache t warmupOptions options =>
      (s.world.check .createThreadCacheOptions
        (options.length ≤ (s.world.allocs c.handle).bucketsCount)).stacksSuffice c.scheme c.handle t
          warmupOptions 0 options = true
  | _ => True

/-- The creation and everything that is done afterwards survive.  When the creation has failed
the handle is null, or all requests are left to the fallback heap. -/
structure Survives (c : Creation) (ops : List Op) : Prop where
  states : forall earlier later, ops = earlier ++ later ->
    (c.setUp.run c.session earlier).world.Survives c.scheme c.handle
  failure : ¬ c.Served -> c.handle = 0 ∨
    forall earlier later t bytesCount alignment, ops = earlier ++ later -> 0 < bytesCount ->
      ValidAlignment alignment ->
      (Allocator.alloc c.scheme (c.setUp.run c.session earlier).world c.handle t bytesCount
          alignment).1 =
        (c.setUp.run c.session earlier).world.heap.answer bytesCount alignment

/-- A step whose stacks suffice leaves an allocator that can be used. -/
theorem step_standing {op : Op} (standing : s.world.Standing c.handle)
    (allowed : c.setUp.allowed s op) (suffice : c.StacksSuffice s op) :
    (c.setUp.next s op).world.Standing c.handle := by
  cases op with
  | alloc t bytesCount alignment => exact standing.uses (World.allocate_uses _ true _ _ t _ _)
  | free t p => exact standing.uses (World.free_uses _ _ t p)
  | realloc t p bytesCount alignment => exact absurd allowed.2 id
  | createThreadCache t warmupOptions options =>
      exact createFrom_standing c.scheme c.handle t warmupOptions options 0 _
        (standing.uses (World.check_uses _ _ _)) suffice
  | destroyThreadCache t => exact absurd allowed.2 id
  | write p k v => exact standing.uses (World.Uses.of_eq rfl rfl rfl)

/-- A creation with all that follows survives exactly when it is served and so is every stack,
except that of an entry 0. -/
theorem survives_iff {ops : List Op} (fitted : forall u j, (c.w.tls u j).Fitted)
    (unharmed : ¬ c.w.Harmed) (permitted : c.setUp.Permitted c.session ops) :
    c.Survives ops <-> c.Served ∧ (c.setUp.restrict c.StacksSuffice).Permitted c.session ops := by
  constructor
  · intro survives
    have created := survives.states [] ops rfl
    refine ⟨by_contra (fun refused => created.unharmed ((harmed_iff unharmed).mpr refused)), ?_⟩
    refine (Transition.permitted_restrict_iff _ _ ops _).mpr ⟨permitted, ?_⟩
    intro before op after parts
    cases op with
    | createThreadCache t warmupOptions options =>
        -- the cache buckets of the thread in the state after this call
        have reached := survives.states (before ++ [.createThreadCache t warmupOptions options])
          after (by rw [parts, List.append_assoc]; rfl)
        rw [Transition.run_append] at reached
        apply createFrom_suffices c.scheme c.handle t warmupOptions options 0
        exact fun j _ null => (reached.absent t j null).closed
    | _ => trivial
  · rintro ⟨served, suffice⟩
    refine ⟨fun earlier later parts => ?_, fun refused => absurd served refused⟩
    rw [parts, Transition.permitted_append] at suffice
    have start : (c.setUp.restrict c.StacksSuffice).Reachable c.session :=
      Transition.Reachable.start rfl
    have reached := start.after suffice.1
    rw [Transition.run_restrict] at reached
    have standing : (c.setUp.run c.session earlier).world.Standing c.handle := by
      generalize c.setUp.run c.session earlier = last at reached ⊢
      apply reached.invariant
      · rintro first rfl
        exact served.standing fitted unharmed
      · rintro before op - kept ⟨allowed, enough⟩
        exact step_standing kept allowed enough
    exact standing.survives

/-! ## One bucket of one page -/

/-- The fallback heap of a program that has just started answers with every other page, but for
request `k`, counted from 0. -/
def onePageWithout (k : Nat) : Creation :=
  ⟨.piecewise, 4096, World.initial (fun n => if n = k then 0 else everyOtherPage n), 1, 4096⟩

theorem initial_fitted (answers : Nat -> Nat) (u j : Nat) :
    ((World.initial answers).tls u j).Fitted := Or.inl ⟨rfl, rfl⟩

/-- The stack of the second thread is refused, and it has asked for none. -/
theorem survives_onePage :
    (onePageWithout 3).Survives [.createThreadCache 0 .hot [3], .createThreadCache 1 .hot [0],
        .alloc 1 16 4, .free 1 16384, .alloc 0 16 4] <->
      (onePageWithout 3).Served ∧
        ((onePageWithout 3).setUp.restrict (onePageWithout 3).StacksSuffice).Permitted
          (onePageWithout 3).session [.createThreadCache 0 .hot [3],
            .createThreadCache 1 .hot [0], .alloc 1 16 4, .free 1 16384, .alloc 0 16 4] :=
  survives_iff (initial_fitted _) (fun harmed => by cases harmed)
    ⟨⟨by decide, trivial⟩, ⟨by decide, trivial⟩, ⟨by decide, valid_four⟩, ⟨by decide, trivial⟩,
      ⟨by decide, valid_four⟩, trivial⟩

/-- Without the buffer the creation itself stores through null; without the stack the warm-up does. -/
theorem not_survives_onePage :
    ¬ (onePageWithout 1).Survives [] ∧
      (onePageWithout 2).setUp.Permitted (onePageWithout 2).session
        [.createThreadCache 0 .hot [3]] ∧
      ¬ (onePageWithout 2).Survives [.createThreadCache 0 .hot [3]] := by
  refine ⟨?_, ⟨⟨by decide, trivial⟩, trivial⟩, ?_⟩
  · intro survives
    apply (survives.states [] [] rfl).unharmed
    decide +kernel
  · intro survives
    apply (survives.states [.createThreadCache 0 .hot [3]] [] rfl).unharmed
    decide +kernel

end Creation

end SmMalloc
