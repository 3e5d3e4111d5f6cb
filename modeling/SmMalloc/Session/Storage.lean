import SmMalloc.Session.Caches

namespace SmMalloc

open Foundation

/-!
# The cache buckets stay within their storage

The array of level 0 has `maxCacheItemsCount` cells, and the stack of level 1
has as many more than its capacity.  A full level 1 of capacity 1 is not
flushed, because half of one block is none; it takes a second block, and when
the cache bucket is destroyed the stack is one slot short.  Any other capacity
is fine, 0 included.
-/

variable {scheme : Partitioning} {pool : Pool scheme} {w : World} {s : Session}
variable {a t p : Nat} {bytesCount alignment : Nat} {rest out : List Nat}
variable {_bucketsCount _bucketSizeInBytes : Nat}

/-- `Free` stores within the stack of the cache bucket. -/
theorem Sound.free_faults (sound : Sound pool a rest w.toMachine (p :: out)) (t : Nat) :
    (Allocator.free w a t p).faults = w.faults := by
  have address := sound.addresses p List.mem_cons_self
  rcases sound.inv.outside_cases address.2 with elsewhere | ⟨i, o, bound, block, rfl⟩
  · rw [sound.inv.free_generic address.1 elsewhere]
  rcases sound.idle_or_caching t i with idle | caching
  · exact (sound.inv.free_closed bound block idle.maxElementsCount).2
  have inv := sound.inv
  rcases inv.free_block_eq bound block (t := t) with
    ⟨counted, sameMachine, -, sameFaults, opened⟩
  rw [← sameMachine] at inv caching
  have released := releaseToCache_faults inv block caching true
  rw [opened, ← sameFaults]
  simp only
  split
  · exact released
  · exact released

namespace Session

/-! ## Sessions that use thread caches -/

/-- Here a cache may have any capacity for which the number of its slots is a
32-bit number, and there may be more options than buckets. -/
def AllowedToCache (scheme : Partitioning) (a : Nat) (s : Session) : Op -> Prop
  | .createThreadCache t warmupOptions options =>
      s.Cacheless t ∧ (forall v, v ∈ options -> v + maxCacheItemsCount < 2 ^ 32) ∧
        (s.world.check .createThreadCacheOptions
          (options.length ≤ (s.world.allocs a).bucketsCount)).stacksServed scheme a t
            warmupOptions 0 options = true
  | .realloc _ _ _ _ => False
  | op => s.Allowed scheme a op

/-- Sessions without `Realloc`. -/
def cacheSystem (scheme : Partitioning) (a _bucketsCount _bucketSizeInBytes : Nat) :
    Transition Session Op where
  start := fun s => Start scheme a _bucketsCount _bucketSizeInBytes s ∧
    Fault.storePastStack ∉ s.world.faults
  allowed := AllowedToCache scheme a
  next := step scheme a

/-- No cache bucket is created with capacity 1. -/
def Flushable : Op -> Prop
  | .createThreadCache _ _ options => 1 ∉ options
  | _ => True

/-- No store has gone past a stack, and the levels are as full as they may be. -/
structure WithinStorage (s : Session) : Prop where
  stack : Fault.storePastStack ∉ s.world.faults
  level0 : forall t i, (s.world.tls t i).numElementsL0 ≤ maxCacheItemsCount
  level1 : forall t i, (s.world.tls t i).numElementsL1 ≤ (s.world.tls t i).maxElementsCount

/-- Nothing has been stored behind the array of level 0. -/
def BeyondUntouched (s s' : Session) : Prop :=
  forall t i k, maxCacheItemsCount ≤ k ->
    (s'.world.tls t i).storageL0 k = (s.world.tls t i).storageL0 k

/-- A step that keeps the session sound has stored within the storage. -/
structure Stored (s s' : Session) (pool : Pool scheme) (a : Nat) (rest : List Nat) : Prop where
  sound : s'.Sound pool a rest
  faults : s'.world.faults = s.world.faults
  beyond : s.BeyondUntouched s'

namespace Sound

theorem free_faults (sound : s.Sound pool a rest) (returnable : s.Returnable p) :
    (Allocator.free s.world a t p).faults = s.world.faults := by
  rcases returnable with small | member
  · rw [free_empty small]
  · exact (sound.returned member).free_faults t

/-- The thread's cache is created with stacks of the sizes that the options ask for. -/
theorem create_stores {warmupOptions : CacheWarmupOptions} {options : List Nat}
    (sound : s.Sound pool a rest)
    (allowed : s.AllowedToCache scheme a (.createThreadCache t warmupOptions options))
    (flushable : Flushable (.createThreadCache t warmupOptions options)) :
    s.Stored (Session.step scheme a s (.createThreadCache t warmupOptions options)) pool a rest := by
  rcases allowed with ⟨cacheless, small, served⟩
  have created := SmMalloc.Sound.createThreadCache sound warmupOptions (sound.idle cacheless)
    (fun v member => ⟨fun one => flushable (one ▸ member), small v member⟩) served
  refine ⟨created.sound, ?_, ?_⟩
  · exact created.faults.trans (World.check_faults _ _ _)
  · intro u j k past
    by_cases other : u = t
    · subst other
      rw [← World.check_toMachine s.world .createThreadCacheOptions
        (options.length ≤ (s.world.allocs a).bucketsCount)]
      exact created.beyond j k past
    · have same := congrFun (created.confined.threads u other) j
      rw [World.check_toMachine] at same
      exact congrArg (fun slot => TlsPoolBucket.storageL0 slot k) same

/-- The thread's cache buckets are at rest again. -/
theorem destroy_stores (sound : s.Sound pool a rest) :
    s.Stored (Session.step scheme a s (.destroyThreadCache t)) pool a rest := by
  have destroyed := SmMalloc.Sound.destroyThreadCache sound t
  refine ⟨destroyed.sound, destroyed.faults, ?_⟩
  intro u j k past
  by_cases other : u = t
  · subst other
    exact congrFun (destroyed.storageL0 j) k
  · exact congrArg (fun slot => TlsPoolBucket.storageL0 slot k)
      (congrFun (destroyed.confined.threads u other) j)

/-- A permitted step with no capacity of 1 stores within the storage. -/
theorem cacheStep {op : Op} (sound : s.Sound pool a rest) (allowed : s.AllowedToCache scheme a op) (flushable : Flushable op) :
    s.Stored (Session.step scheme a s op) pool a rest := by
  cases op with
  | alloc t bytesCount alignment =>
      have kept : forall u j, (s.world.tls u j).Kept
          ((Session.step scheme a s (.alloc t bytesCount alignment)).world.tls u j) :=
        sound.alloc_kept allowed.2
      exact ⟨sound.alloc allowed.2, World.allocate_faults true s.world,
        fun u j k past => (kept u j).beyond k past⟩
  | free t p =>
      have kept := sound.free_kept (t := t) allowed
      exact ⟨sound.free allowed, sound.free_faults allowed,
        fun u j k past => (kept u j).beyond k past⟩
  | realloc t p bytesCount alignment => exact absurd allowed id
  | createThreadCache t warmupOptions options => exact sound.create_stores allowed flushable
  | destroyThreadCache t => exact sound.destroy_stores
  | write p k v =>
      exact ⟨sound.write allowed.1 allowed.2, rfl, fun _ _ _ _ => rfl⟩

end Sound

/-- As long as no cache bucket is created with capacity 1, all stores stay
within the storage of the cache buckets. -/
theorem storage (wellFormed : WellFormed scheme _bucketsCount _bucketSizeInBytes)
    (integral : scheme ≠ .float)
    (reachable : ((cacheSystem scheme a _bucketsCount _bucketSizeInBytes).restrict
      (fun _ op => Flushable op)).Reachable s) :
    s.WithinStorage ∧ forall op, s.AllowedToCache scheme a op -> Flushable op ->
      s.BeyondUntouched (step scheme a s op) := by
  have sized := Partitioning.sized integral
  have invariant : ∃ (pool : Pool scheme) (rest : List Nat), s.Sound pool a rest ∧
      Fault.storePastStack ∉ s.world.faults := by
    apply reachable.invariant
    · rintro first ⟨⟨w, fresh, -, served, rfl⟩, clean⟩
      rcases wellFormed.sound sized fresh served with ⟨pool, -, sound⟩
      exact ⟨pool, _, sound, clean⟩
    · rintro before op - ⟨pool, rest, sound, clean⟩ ⟨allowed, flushable⟩
      rcases sound.cacheStep allowed flushable with ⟨sound', faults, -⟩
      refine ⟨pool, rest, sound', ?_⟩
      change Fault.storePastStack ∉ (step scheme a before op).world.faults
      rw [faults]
      exact clean
  rcases invariant with ⟨pool, rest, sound, clean⟩
  refine ⟨⟨clean, ?_, ?_⟩, fun op allowed flushable =>
    (sound.cacheStep allowed flushable).beyond⟩
  · intro u j
    exact (SmMalloc.Sound.ready sound u j).1.levelL0
  · intro u j
    exact (SmMalloc.Sound.ready sound u j).1.levelL1

/-! ## A level 1 for a single block -/

/-- All held blocks may be freed, one after the other, and the cache destroyed. -/
theorem freeHeld_reachable
    (reachable : (cacheSystem scheme a _bucketsCount _bucketSizeInBytes).Reachable s) :
    (cacheSystem scheme a _bucketsCount _bucketSizeInBytes).Reachable
      ((cacheSystem scheme a _bucketsCount _bucketSizeInBytes).next
        ((cacheSystem scheme a _bucketsCount _bucketSizeInBytes).run s (freeAll s.held))
        (.destroyThreadCache 0)) := by
  have freed := reachable.after (freeAll_permitted _ rfl (fun _ _ returnable => returnable) s.held
    [] s (List.append_nil s.held).symm).1
  have allowed : forall s : Session, (cacheSystem scheme a _bucketsCount
      _bucketSizeInBytes).allowed s (.destroyThreadCache 0) := fun _ => trivial
  exact freed.step (allowed _)

/-- Thread 0 has a cache for one block and nine blocks. -/
def onePageNine : Session :=
  (cacheSystem .piecewise 0 1 4096).run onePage
    (.createThreadCache 0 .cold [1] :: allocMany 9)

theorem cacheSystem_onePage : (cacheSystem .piecewise 0 1 4096).Reachable onePage :=
  Transition.Reachable.start ⟨initial_start (by decide), by decide⟩

/-- When it has freed them and destroys its cache, it stores past the stack. -/
theorem storage_overflows_onePage :
    ∃ s, (cacheSystem .piecewise 0 1 4096).Reachable s ∧ ¬ s.WithinStorage := by
  have created : (cacheSystem .piecewise 0 1 4096).Permitted onePage
      (.createThreadCache 0 .cold [1] :: allocMany 9) :=
    ⟨⟨fun _ => rfl, by decide, by decide⟩,
      allocMany_permitted (cacheSystem .piecewise 0 1 4096) (fun _ => ⟨by decide, valid_four⟩) 9 _⟩
  have nine : (cacheSystem .piecewise 0 1 4096).Reachable onePageNine :=
    cacheSystem_onePage.after created
  refine ⟨_, freeHeld_reachable nine, ?_⟩
  intro within
  have clean := within.stack
  revert clean
  decide +kernel

theorem storage_onePage :
    onePageUsed.WithinStorage ∧ forall op, onePageUsed.AllowedToCache .piecewise 0 op ->
      Flushable op -> onePageUsed.BeyondUntouched (step .piecewise 0 onePageUsed op) := by
  have permitted : ((cacheSystem .piecewise 0 1 4096).restrict
      (fun _ op => Flushable op)).Permitted onePage onePageRun := by
    refine ⟨⟨⟨fun _ => rfl, by decide, by decide⟩, ?_⟩, ⟨⟨by decide, valid_four⟩, trivial⟩,
      ⟨Or.inr (by decide), trivial⟩, trivial⟩
    change 1 ∉ [3]
    decide
  have start : ((cacheSystem .piecewise 0 1 4096).restrict
      (fun _ op => Flushable op)).Reachable onePage :=
    Transition.Reachable.start ⟨initial_start (by decide), by decide⟩
  have used := start.after permitted
  rw [Transition.run_restrict, Transition.run_congr (system .piecewise 0 1 4096)
    (cacheSystem .piecewise 0 1 4096) (fun _ _ => rfl)] at used
  exact storage (onePage_wellFormed (by decide)) (by decide) used

end Session

end SmMalloc
