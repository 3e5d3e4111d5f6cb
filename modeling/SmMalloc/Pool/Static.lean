import SmMalloc.Model.CacheSetup

namespace SmMalloc

open Foundation

/-!
# What no request ever changes

The layout of an allocator object is what is left of it when the list heads and
the tag counters are blotted out.  It is fixed once `Init` has returned.  That
is true of every state, also of one that has gone wrong, so the lemmas here
need no invariant.
-/

variable {scheme : Partitioning} {m m' : Machine} {w : World}
variable {a i t p : Nat} {bytesCount alignment : Nat}

/-- An allocator object without its list heads and tag counters. -/
def Allocator.layout (alloc : Allocator) : Allocator :=
  { alloc with buckets := fun i =>
    { alloc.buckets i with head := TaggedIndex.invalid, globalTag := 0 } }

def Machine.layout (m : Machine) : Nat -> Allocator := fun a => (m.allocs a).layout

namespace Machine

theorem setBucket_layout {b : PoolBucket} (pData : b.pData = (m.bucket a i).pData)
    (bufferEnd : b.pBufferEnd = (m.bucket a i).pBufferEnd) :
    (m.setBucket a i b).layout = m.layout := by
  funext a'
  by_cases same : a' = a
  · subst same
    have buckets : forall j, (({ (Function.update (m.allocs a').buckets i b) j with
        head := TaggedIndex.invalid, globalTag := 0 } : PoolBucket)) =
          { (m.allocs a').buckets j with head := TaggedIndex.invalid, globalTag := 0 } := by
      intro j
      by_cases here : j = i
      · subst here
        simp only [Function.update_self, pData, bufferEnd, Machine.bucket]
      · rw [Function.update_of_ne here]
    simp only [layout, Allocator.layout, setBucket, Function.update_self, buckets]
  · rw [layout, layout, setBucket_allocs_of_ne m a i b same]

/-! ## The central list and the caches -/

@[simp] theorem alloc_layout (m : Machine) (a i : Nat) :
    (PoolBucket.alloc m a i).2.layout = m.layout := by
  unfold PoolBucket.alloc
  simp only
  split
  · rfl
  · exact setBucket_layout rfl rfl

@[simp] theorem freeInterval_layout (m : Machine) (a i pHead pTail : Nat) :
    (PoolBucket.freeInterval m a i pHead pTail).layout = m.layout := by
  unfold PoolBucket.freeInterval
  exact setBucket_layout rfl rfl

end Machine

namespace World

@[simp] theorem pushL1_layout (w : World) (t i : Nat) (offset : UInt32) :
    (w.pushL1 t i offset).layout = w.layout := by
  unfold World.pushL1
  simp only
  split
  · rfl
  · split <;> rfl

@[simp] theorem returnL1CacheToMaster_layout (w : World) (t i count : Nat) :
    (TlsPoolBucket.returnL1CacheToMaster w t i count).layout = w.layout := by
  unfold TlsPoolBucket.returnL1CacheToMaster
  simp only
  split
  · rfl
  split
  · rw [check_toMachine]
  split
  · rw [fault_toMachine, check_toMachine]
  · change (PoolBucket.freeInterval _ _ _ _ _).layout = _
    rw [Machine.freeInterval_layout]
    change (w.check .returnL1CacheToMasterBucket _).layout = _
    rw [check_toMachine]

@[simp] theorem allocFromCache_layout (w : World) (t i : Nat) :
    (Allocator.allocFromCache w t i).2.layout = w.layout := by
  unfold Allocator.allocFromCache
  simp only
  split
  · rw [setTls_toMachine, check_toMachine]
    rfl
  split
  · rw [setTls_toMachine, check_toMachine, check_toMachine]
    rfl
  · rfl

@[simp] theorem releaseToCache_layout (useCacheL0 : Bool) (w : World) (t i p : Nat) :
    (Allocator.releaseToCache useCacheL0 w t i p).2.layout = w.layout := by
  unfold Allocator.releaseToCache
  simp only
  split
  · rfl
  split
  · rw [setTls_toMachine, check_toMachine, check_toMachine, check_toMachine]
    rfl
  split
  · rw [pushL1_layout, check_toMachine, check_toMachine, check_toMachine]
  · rw [pushL1_layout, returnL1CacheToMaster_layout, check_toMachine, check_toMachine,
      check_toMachine]

/-! ## Requests -/

theorem allocateFromCentral_layout (enableStatistic : Bool) (maxBucketIndex : Nat) :
    forall (rounds i : Nat) (w : World),
    (Allocator.allocateFromCentral scheme enableStatistic a alignment maxBucketIndex rounds i
      w).2.layout = w.layout := by
  intro rounds
  induction rounds with
  | zero => intro i w; rfl
  | succ rounds ih =>
      intro i w
      have popped : (PoolBucket.alloc (w.check .allocateBucketIndex
          (decide (i < maxBucketCount))).toMachine a i).2.layout = w.layout := by
        rw [Machine.alloc_layout, check_toMachine]
      unfold Allocator.allocateFromCentral
      simp only
      split
      · split
        · rw [countBucket_toMachine, countGlobal_toMachine]
          exact popped
        · split
          · rw [ih, countBucket_toMachine]
            exact popped
          · rw [countBucket_toMachine]
            exact popped
      · rfl

@[simp] theorem allocateFromThreadCache_layout (enableStatistic : Bool) (w : World) (a t i : Nat) :
    (Allocator.allocateFromThreadCache enableStatistic a t i w).2.layout = w.layout := by
  unfold Allocator.allocateFromThreadCache
  simp only
  split
  · split
    · rw [countBucket_toMachine, countGlobal_toMachine, allocFromCache_layout]
    · rw [allocFromCache_layout]
  · rfl

@[simp] theorem allocateFromGeneric_layout (enableStatistic isValidBucket : Bool) (w : World) :
    (Allocator.allocateFromGeneric enableStatistic isValidBucket a bytesCount alignment
      w).2.layout = w.layout := by
  unfold Allocator.allocateFromGeneric
  simp only [countGlobal_toMachine]
  rfl

theorem allocate_layout (enableStatistic : Bool) (w : World) :
    (Allocator.allocate scheme enableStatistic w a t bytesCount alignment).2.layout =
      w.layout := by
  unfold Allocator.allocate
  simp only
  split
  · rw [check_toMachine]
  split
  · rw [allocateFromThreadCache_layout, checkBucketIndexBySize_toMachine, checkAlign_toMachine,
      countGlobal_toMachine, check_toMachine]
  split
  · rw [allocateFromCentral_layout, allocateFromThreadCache_layout, checkBucketIndexBySize_toMachine,
      checkAlign_toMachine, countGlobal_toMachine, check_toMachine]
  · rw [allocateFromGeneric_layout, allocateFromCentral_layout, allocateFromThreadCache_layout,
      checkBucketIndexBySize_toMachine, checkAlign_toMachine, countGlobal_toMachine, check_toMachine]

@[simp] theorem alloc_layout (w : World) :
    (Allocator.alloc scheme w a t bytesCount alignment).2.layout = w.layout :=
  allocate_layout true w

@[simp] theorem free_layout (w : World) (a t p : Nat) :
    (Allocator.free w a t p).layout = w.layout := by
  unfold Allocator.free
  simp only
  split
  · rfl
  split
  · split
    · rw [releaseToCache_layout, countBucket_toMachine]
    · rw [Machine.freeInterval_layout, releaseToCache_layout, countBucket_toMachine]
  · rfl

theorem memmove_layout (w : World) (target source count : Nat) :
    (Allocator.memmove w target source count).layout = w.layout := by
  unfold Allocator.memmove
  split <;> rfl

theorem genericRealloc_layout (w : World) (p bytesCount alignment : Nat) :
    (Allocator.genericRealloc w p bytesCount alignment).2.layout = w.layout := by
  unfold Allocator.genericRealloc
  simp only
  split
  · rfl
  split
  · exact memmove_layout _ _ _ _
  · rfl

@[simp] theorem realloc_layout (w : World) :
    (Allocator.realloc scheme w a t p bytesCount alignment).2.layout = w.layout := by
  have moved : forall (w' : World) (target source count : Nat), (if Allocator.isReadable p then
      Allocator.memmove w' target source count else w').layout = w'.layout := by
    intro w' target source count
    split
    · exact memmove_layout _ _ _ _
    · rfl
  unfold Allocator.realloc
  simp only
  split
  · exact alloc_layout w
  split
  · exact free_layout w a t p
  split
  · split
    · rfl
    split
    · exact alloc_layout w
    · rw [free_layout, moved, alloc_layout]
  split
  · refine (moved _ _ _ _).trans ?_
    rw [alloc_layout, checkBucketIndexBySize_toMachine, checkAlign_toMachine]
  · rw [genericRealloc_layout, check_toMachine, checkBucketIndexBySize_toMachine, checkAlign_toMachine]

/-! ## Allocation makes no bad store -/

@[simp] theorem allocFromCache_faults (w : World) (t i : Nat) :
    (Allocator.allocFromCache w t i).2.faults = w.faults := by
  have slot : forall (w' : World) (self : TlsPoolBucket),
      (w'.setTls t i self).faults = w'.faults := fun _ _ => rfl
  unfold Allocator.allocFromCache
  simp only
  split
  · rw [slot, check_faults]
  split
  · rw [slot, check_faults, check_faults]
  · rfl

theorem allocateFromCentral_faults (enableStatistic : Bool) (maxBucketIndex : Nat) :
    forall (rounds i : Nat) (w : World),
    (Allocator.allocateFromCentral scheme enableStatistic a alignment maxBucketIndex rounds i
      w).2.faults = w.faults := by
  intro rounds
  induction rounds with
  | zero => intro i w; rfl
  | succ rounds ih =>
      intro i w
      unfold Allocator.allocateFromCentral
      simp only
      split
      · split
        · rw [countBucket_faults, countGlobal_faults]
          exact check_faults _ _ _
        · split
          · rw [ih, countBucket_faults]
            exact check_faults _ _ _
          · rw [countBucket_faults]
            exact check_faults _ _ _
      · rfl

@[simp] theorem allocateFromThreadCache_faults (enableStatistic : Bool) (w : World) (a t i : Nat) :
    (Allocator.allocateFromThreadCache enableStatistic a t i w).2.faults = w.faults := by
  unfold Allocator.allocateFromThreadCache
  simp only
  split
  · split
    · rw [countBucket_faults, countGlobal_faults, allocFromCache_faults]
    · rw [allocFromCache_faults]
  · rfl

@[simp] theorem allocateFromGeneric_faults (enableStatistic isValidBucket : Bool) (w : World) :
    (Allocator.allocateFromGeneric enableStatistic isValidBucket a bytesCount alignment
      w).2.faults = w.faults := by
  unfold Allocator.allocateFromGeneric
  simp only [countGlobal_faults]

theorem allocate_faults (enableStatistic : Bool) (w : World) :
    (Allocator.allocate scheme enableStatistic w a t bytesCount alignment).2.faults =
      w.faults := by
  unfold Allocator.allocate
  simp only
  split
  · rw [check_faults]
  split
  · rw [allocateFromThreadCache_faults, checkBucketIndexBySize_faults, checkAlign_faults,
      countGlobal_faults, check_faults]
  split
  · rw [allocateFromCentral_faults, allocateFromThreadCache_faults, checkBucketIndexBySize_faults,
      checkAlign_faults, countGlobal_faults, check_faults]
  · rw [allocateFromGeneric_faults, allocateFromCentral_faults, allocateFromThreadCache_faults,
      checkBucketIndexBySize_faults, checkAlign_faults, countGlobal_faults, check_faults]

end World

/-! ## Allocation puts nothing into the caches -/

/-- The new state of a cache bucket is the old one with fewer blocks. -/
def TlsPoolBucket.Popped (old new : TlsPoolBucket) : Prop :=
  ∃ l0 l1, l0 ≤ old.numElementsL0 ∧ l1 ≤ old.numElementsL1 ∧
    new = { old with numElementsL0 := l0, numElementsL1 := l1 }

theorem TlsPoolBucket.Popped.refl (self : TlsPoolBucket) : self.Popped self :=
  ⟨_, _, Nat.le_refl _, Nat.le_refl _, rfl⟩

namespace World

theorem setTls_popped {self : TlsPoolBucket} (popped : (w.tls t i).Popped self) (u j : Nat) :
    (w.tls u j).Popped ((w.setTls t i self).tls u j) := by
  rw [setTls_toMachine]
  by_cases here : u = t ∧ j = i
  · rw [here.1, here.2, Machine.setTls_same]
    exact popped
  · rw [Machine.setTls_of_ne _ _ _ _ here]
    exact TlsPoolBucket.Popped.refl _

theorem allocFromCache_popped (w : World) (t i u j : Nat) :
    (w.tls u j).Popped ((Allocator.allocFromCache w t i).2.tls u j) := by
  have same : forall w' : World, w'.toMachine = w.toMachine ->
      forall self : TlsPoolBucket, (w.tls t i).Popped self ->
      (w.tls u j).Popped ((w'.setTls t i self).tls u j) := by
    intro w' equal self popped
    rw [← equal] at popped ⊢
    exact setTls_popped popped u j
  unfold Allocator.allocFromCache
  simp only
  split
  · exact same _ (check_toMachine _ _ _) _ ⟨_, _, Nat.sub_le _ _, Nat.le_refl _, rfl⟩
  split
  · refine same _ ?_ _ ⟨_, _, Nat.le_refl _, Nat.sub_le _ _, rfl⟩
    rw [check_toMachine, check_toMachine]
  · exact TlsPoolBucket.Popped.refl _

theorem allocateFromCentral_tls (enableStatistic : Bool) (maxBucketIndex : Nat) :
    forall (rounds i : Nat) (w : World),
    (Allocator.allocateFromCentral scheme enableStatistic a alignment maxBucketIndex rounds i
      w).2.tls = w.tls := by
  have popped : forall (m : Machine) (i : Nat), (PoolBucket.alloc m a i).2.tls = m.tls := by
    intro m i
    unfold PoolBucket.alloc
    simp only
    split <;> rfl
  intro rounds
  induction rounds with
  | zero => intro i w; rfl
  | succ rounds ih =>
      intro i w
      unfold Allocator.allocateFromCentral
      simp only
      split
      · split
        · rw [countBucket_toMachine, countGlobal_toMachine]
          exact (popped _ _).trans (by rw [check_toMachine])
        · split
          · rw [ih, countBucket_toMachine]
            exact (popped _ _).trans (by rw [check_toMachine])
          · rw [countBucket_toMachine]
            exact (popped _ _).trans (by rw [check_toMachine])
      · rfl

theorem allocateFromThreadCache_popped (enableStatistic : Bool) (w : World) (a t i u j : Nat) :
    (w.tls u j).Popped
      ((Allocator.allocateFromThreadCache enableStatistic a t i w).2.tls u j) := by
  unfold Allocator.allocateFromThreadCache
  simp only
  split
  · split
    · rw [countBucket_toMachine, countGlobal_toMachine]
      exact allocFromCache_popped w t i u j
    · exact allocFromCache_popped w t i u j
  · exact TlsPoolBucket.Popped.refl _

/-- Whatever a request does, it takes at most from the caches. -/
theorem allocate_popped (enableStatistic : Bool) (w : World) (u j : Nat) :
    (w.tls u j).Popped
      ((Allocator.allocate scheme enableStatistic w a t bytesCount alignment).2.tls u j) := by
  unfold Allocator.allocate
  simp only
  split
  · rw [check_toMachine]
    exact TlsPoolBucket.Popped.refl _
  obtain ⟨counted, isCounted⟩ : ∃ counted : World, counted =
      (((w.check .allocateAlignment (decide (alignment ≤ kMaxValidAlignment))).countGlobal
        enableStatistic a (fun stats => { stats with
          totalNumAllocationAttempts := stats.totalNumAllocationAttempts + 1 })).checkAlign
        bytesCount alignment).checkBucketIndexBySize scheme (align bytesCount alignment) := ⟨_, rfl⟩
  have same : counted.toMachine = w.toMachine := by
    rw [isCounted, checkBucketIndexBySize_toMachine, checkAlign_toMachine, countGlobal_toMachine,
      check_toMachine]
  rw [← isCounted, ← same]
  have taken := allocateFromThreadCache_popped enableStatistic counted a t
    (scheme.getBucketIndexBySize (align bytesCount alignment)) u j
  have answered : forall (isValidBucket : Bool) (w' : World),
      (Allocator.allocateFromGeneric enableStatistic isValidBucket a bytesCount alignment w').2.tls =
        w'.tls := by
    intro isValidBucket w'
    unfold Allocator.allocateFromGeneric
    simp only [countGlobal_toMachine]
  split
  · exact taken
  split
  · rw [allocateFromCentral_tls]
    exact taken
  · rw [answered, allocateFromCentral_tls]
    exact taken

end World

/-! ## Release fills no other cache bucket -/

namespace World

variable {u j : Nat}

theorem pushL1_tls (other : ¬ (u = t ∧ j = i)) (offset : UInt32) :
    (w.pushL1 t i offset).tls u j = w.tls u j := by
  unfold World.pushL1
  simp only
  split
  · exact Machine.setTls_of_ne _ _ _ _ other
  · split
    · exact Machine.setTls_of_ne _ _ _ _ other
    · exact Machine.setTls_of_ne _ _ _ _ other

theorem returnL1CacheToMaster_tls (other : ¬ (u = t ∧ j = i)) (count : Nat) :
    (TlsPoolBucket.returnL1CacheToMaster w t i count).tls u j = w.tls u j := by
  unfold TlsPoolBucket.returnL1CacheToMaster
  simp only
  split
  · rfl
  split
  · rw [check_toMachine]
  split
  · rw [fault_toMachine, check_toMachine]
  · refine (Machine.setTls_of_ne _ _ _ _ other).trans ?_
    change (w.check .returnL1CacheToMasterBucket _).tls u j = _
    rw [check_toMachine]

theorem releaseToCache_tls (useCacheL0 : Bool) (other : ¬ (u = t ∧ j = i)) (p : Nat) :
    (Allocator.releaseToCache useCacheL0 w t i p).2.tls u j = w.tls u j := by
  unfold Allocator.releaseToCache
  simp only
  split
  · rfl
  split
  · rw [setTls_toMachine, check_toMachine, check_toMachine, check_toMachine]
    exact Machine.setTls_of_ne _ _ _ _ other
  split
  · rw [pushL1_tls other, check_toMachine, check_toMachine, check_toMachine]
  · rw [pushL1_tls other, returnL1CacheToMaster_tls other, check_toMachine, check_toMachine,
      check_toMachine]

/-- A call of `Free` has an influence on one cache bucket at most. -/
theorem free_tls (other : ¬ (u = t ∧ j = (w.allocs a).findBucket p)) :
    (Allocator.free w a t p).tls u j = w.tls u j := by
  unfold Allocator.free
  simp only
  split
  · rfl
  split
  · split
    · rw [releaseToCache_tls true other, countBucket_toMachine]
    · exact (releaseToCache_tls true other p).trans (by rw [countBucket_toMachine])
  · rfl

end World

end SmMalloc
