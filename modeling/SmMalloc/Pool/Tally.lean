import Mathlib.Algebra.BigOperators.Group.Finset.Piecewise
import SmMalloc.Pool.Static

namespace SmMalloc

open Foundation

/-!
# What the statistics count

The counters of one allocator, without the misses, are a tally of requests:
how many there were, which of them a bucket has served, and where the others
went.  A tally reconciles when every block that has been handed out is either
back or with a client.  Only `Allocate` and `Free` count anything, and what
they count is one entry of the tally each.
-/

/-- A tally of requests, with the blocks handed out and taken back by bucket. -/
structure Tally where
  attempts : Nat
  served : Nat
  routed : Nat
  bySize : Nat
  saturation : Nat
  handed : Nat -> Nat
  freed : Nat -> Nat

namespace Tally

def zero : Tally := ⟨0, 0, 0, 0, 0, fun _ => 0, fun _ => 0⟩

/-- A request has come in. -/
def attempt (c : Tally) : Tally := { c with attempts := c.attempts + 1 }

/-- Bucket `j` has served it. -/
def serve (j : Nat) (c : Tally) : Tally :=
  { c with served := c.served + 1, handed := Function.update c.handed j (c.handed j + 1) }

/-- It goes to the fallback heap, because its bucket is empty or because it has none. -/
def route (isValidBucket : Bool) (c : Tally) : Tally :=
  if isValidBucket then { c with routed := c.routed + 1, saturation := c.saturation + 1 }
  else { c with routed := c.routed + 1, bySize := c.bySize + 1 }

/-- A block of bucket `j` has come back. -/
def free (j : Nat) (c : Tally) : Tally :=
  { c with freed := Function.update c.freed j (c.freed j + 1) }

/-- Entries are made only where the template flag asks for them. -/
def enter (enableStatistic : Bool) (entry : Tally -> Tally) (c : Tally) : Tally :=
  if enableStatistic then entry c else c

@[simp] theorem enter_true (entry : Tally -> Tally) (c : Tally) : c.enter true entry = entry c := rfl

@[simp] theorem enter_false (entry : Tally -> Tally) (c : Tally) : c.enter false entry = c := rfl

theorem enter_enter (enableStatistic : Bool) (first second : Tally -> Tally) (c : Tally) :
    (c.enter enableStatistic first).enter enableStatistic second =
      c.enter enableStatistic (fun c => second (first c)) := by
  cases enableStatistic with
  | true => rfl
  | false => rfl

/-- The tally of an allocator with `count` buckets, when the clients hold `holding i`
blocks of bucket `i`. -/
structure Reconciled (count : Nat) (holding : Nat -> Nat) (c : Tally) : Prop where
  attempts : c.attempts = c.served + c.routed
  reasons : c.routed = c.bySize + c.saturation
  served : c.served = ∑ i ∈ Finset.range count, c.handed i
  balance : forall i, i < count -> c.handed i = c.freed i + holding i

namespace Reconciled

variable {count j : Nat} {holding : Nat -> Nat} {c : Tally}

theorem zero (none : forall i, i < count -> holding i = 0) : Tally.zero.Reconciled count holding where
  attempts := rfl
  reasons := rfl
  served := (Finset.sum_const_zero).symm
  balance := fun i bound => (congrArg (0 + ·) (none i bound)).symm

theorem congr {holding' : Nat -> Nat} (reconciled : c.Reconciled count holding)
    (same : forall i, i < count -> holding' i = holding i) : c.Reconciled count holding' where
  attempts := reconciled.attempts
  reasons := reconciled.reasons
  served := reconciled.served
  balance := fun i bound => (reconciled.balance i bound).trans (congrArg _ (same i bound).symm)

/-- A client gets a block of bucket `j`. -/
theorem serve (reconciled : c.Reconciled count holding) (bound : j < count) :
    (c.attempt.serve j).Reconciled count (Function.update holding j (holding j + 1)) where
  attempts := by
    have attempts := reconciled.attempts
    simp only [attempt, Tally.serve]
    omega
  reasons := reconciled.reasons
  served := by
    have member : j ∈ Finset.range count := Finset.mem_range.mpr bound
    have split := Finset.sum_update_of_mem member c.handed (c.handed j + 1)
    have whole := Finset.add_sum_erase (Finset.range count) c.handed member
    rw [Finset.sdiff_singleton_eq_erase] at split
    have served := reconciled.served
    simp only [attempt, Tally.serve, split]
    omega
  balance := by
    intro i inside
    have balance := reconciled.balance i inside
    simp only [attempt, Tally.serve]
    by_cases here : i = j
    · subst here
      simp only [Function.update_self]
      omega
    · rw [Function.update_of_ne here, Function.update_of_ne here]
      exact balance

/-- A client gets a block of the fallback heap, or none. -/
theorem route (reconciled : c.Reconciled count holding) (isValidBucket : Bool) :
    (c.attempt.route isValidBucket).Reconciled count holding := by
  have attempts := reconciled.attempts
  have reasons := reconciled.reasons
  cases isValidBucket with
  | true =>
      refine ⟨?_, ?_, reconciled.served, reconciled.balance⟩
      · change c.attempts + 1 = c.served + (c.routed + 1)
        omega
      · change c.routed + 1 = c.bySize + (c.saturation + 1)
        omega
  | false =>
      refine ⟨?_, ?_, reconciled.served, reconciled.balance⟩
      · change c.attempts + 1 = c.served + (c.routed + 1)
        omega
      · change c.routed + 1 = c.bySize + 1 + c.saturation
        omega

/-- A client gives a block of bucket `j` back. -/
theorem free {holding' : Nat -> Nat} (reconciled : c.Reconciled count holding)
    (fewer : holding = Function.update holding' j (holding' j + 1)) :
    (c.free j).Reconciled count holding' where
  attempts := reconciled.attempts
  reasons := reconciled.reasons
  served := reconciled.served
  balance := by
    intro i inside
    have balance := reconciled.balance i inside
    rw [fewer] at balance
    simp only [Tally.free]
    by_cases here : i = j
    · subst here
      rw [Function.update_self] at balance ⊢
      omega
    · rw [Function.update_of_ne here] at balance ⊢
      exact balance

end Reconciled

end Tally

/-! ## The tally of an allocator -/

/-- What the counters of allocator `a` say. -/
def World.tally (w : World) (a : Nat) : Tally where
  attempts := (w.globalStats a).totalNumAllocationAttempts
  served := (w.globalStats a).totalAllocationsServed
  routed := (w.globalStats a).totalAllocationsRoutedToDefaultAllocator
  bySize := (w.globalStats a).routingReasonBySize
  saturation := (w.globalStats a).routingReasonSaturation
  handed := fun i => (w.bucketStats a i).cacheHitCount + (w.bucketStats a i).hitCount
  freed := fun i => (w.bucketStats a i).freeCount

namespace World

variable {w : World} {a i t p : Nat} {enableStatistic : Bool}

@[simp] theorem check_tally (site : Assertion) (holds : Bool) :
    (w.check site holds).tally a = w.tally a := by
  unfold check
  split <;> rfl

theorem tally_attempt : (w.countGlobal enableStatistic a (fun stats => { stats with
    totalNumAllocationAttempts := stats.totalNumAllocationAttempts + 1 })).tally a =
      (w.tally a).enter enableStatistic Tally.attempt := by
  cases enableStatistic with
  | false => rfl
  | true => simp only [tally, countGlobal, if_true, Function.update_self, Tally.enter, Tally.attempt]

/-- A change of one bucket's counters changes what it has handed out. -/
theorem tally_countBucket (count : BucketStats -> BucketStats) :
    (w.countBucket true a i count).tally a = { w.tally a with
      handed := Function.update (w.tally a).handed i
        ((count (w.bucketStats a i)).cacheHitCount + (count (w.bucketStats a i)).hitCount)
      freed := Function.update (w.tally a).freed i (count (w.bucketStats a i)).freeCount } := by
  have buckets : forall j, (w.countBucket true a i count).bucketStats a j =
      if j = i then count (w.bucketStats a i) else w.bucketStats a j := by
    intro j
    simp only [countBucket, if_true, Function.update_self, Function.update_apply]
  have handed : ((w.countBucket true a i count).tally a).handed =
      Function.update (w.tally a).handed i
        ((count (w.bucketStats a i)).cacheHitCount + (count (w.bucketStats a i)).hitCount) := by
    funext j
    simp only [tally, buckets, Function.update_apply]
    split <;> rfl
  have freed : ((w.countBucket true a i count).tally a).freed =
      Function.update (w.tally a).freed i (count (w.bucketStats a i)).freeCount := by
    funext j
    simp only [tally, buckets, Function.update_apply]
    split <;> rfl
  rw [← handed, ← freed]
  rfl

theorem tally_countGlobal_served : (w.countGlobal true a (fun stats => { stats with
    totalAllocationsServed := stats.totalAllocationsServed + 1 })).tally a =
      { w.tally a with served := (w.tally a).served + 1 } := by
  simp only [tally, countGlobal, if_true, Function.update_self]

/-- A hit, in the cache or on the central list, is a served request. -/
theorem tally_hit {count : BucketStats -> BucketStats}
    (more : forall stats, (count stats).cacheHitCount + (count stats).hitCount =
      stats.cacheHitCount + stats.hitCount + 1)
    (freed : forall stats, (count stats).freeCount = stats.freeCount) :
    ((w.countGlobal enableStatistic a (fun stats => { stats with
      totalAllocationsServed := stats.totalAllocationsServed + 1 })).countBucket enableStatistic a i
        count).tally a = (w.tally a).enter enableStatistic (Tally.serve i) := by
  cases enableStatistic with
  | false => rfl
  | true =>
      rw [tally_countBucket, tally_countGlobal_served, more, freed]
      have same : Function.update (w.tally a).freed i ((w.tally a).freed i) = (w.tally a).freed :=
        Function.update_eq_self i _
      exact congrArg (fun freed => { (w.tally a).serve i with freed := freed }) same

theorem tally_cacheHit : ((w.countGlobal enableStatistic a (fun stats => { stats with
    totalAllocationsServed := stats.totalAllocationsServed + 1 })).countBucket enableStatistic a i
      (fun stats => { stats with cacheHitCount := stats.cacheHitCount + 1 })).tally a =
        (w.tally a).enter enableStatistic (Tally.serve i) :=
  tally_hit (fun _ => Nat.add_right_comm _ 1 _) (fun _ => rfl)

theorem tally_miss (count : Nat -> Nat) :
    (w.countBucket enableStatistic a i (fun stats => { stats with
      missCount := count stats.missCount })).tally a = w.tally a := by
  cases enableStatistic with
  | false => rfl
  | true =>
      have handed : Function.update (w.tally a).handed i ((w.tally a).handed i) =
          (w.tally a).handed := Function.update_eq_self i _
      have freed : Function.update (w.tally a).freed i ((w.tally a).freed i) =
          (w.tally a).freed := Function.update_eq_self i _
      rw [tally_countBucket]
      change { w.tally a with
        handed := Function.update (w.tally a).handed i ((w.tally a).handed i)
        freed := Function.update (w.tally a).freed i ((w.tally a).freed i) } = _
      rw [handed, freed]

theorem tally_route (isValidBucket : Bool) :
    ((w.countGlobal enableStatistic a (fun stats =>
      if isValidBucket then
        { stats with routingReasonSaturation := stats.routingReasonSaturation + 1 }
      else { stats with routingReasonBySize := stats.routingReasonBySize + 1 })).countGlobal
        enableStatistic a (fun stats => { stats with totalAllocationsRoutedToDefaultAllocator :=
          stats.totalAllocationsRoutedToDefaultAllocator + 1 })).tally a =
      (w.tally a).enter enableStatistic (Tally.route isValidBucket) := by
  cases enableStatistic with
  | false => rfl
  | true =>
      cases isValidBucket with
      | true => simp [tally, countGlobal, Tally.route]
      | false => simp [tally, countGlobal, Tally.route]

theorem tally_free : (w.countBucket true a i (fun stats => { stats with
    freeCount := stats.freeCount + 1 })).tally a = (w.tally a).free i := by
  have handed : Function.update (w.tally a).handed i ((w.tally a).handed i) =
      (w.tally a).handed := Function.update_eq_self i _
  rw [tally_countBucket]
  exact congrArg (fun handed => { (w.tally a).free i with handed := handed }) handed

theorem allocateFromGeneric_tally (isValidBucket : Bool) (bytesCount alignment : Nat) :
    (Allocator.allocateFromGeneric enableStatistic isValidBucket a bytesCount alignment w).2.tally
      a = (w.tally a).enter enableStatistic (Tally.route isValidBucket) :=
  tally_route isValidBucket

/-! ## What counts nothing -/

@[simp] theorem pushL1_tally (offset : UInt32) : (w.pushL1 t i offset).tally a = w.tally a := by
  unfold World.pushL1
  simp only
  split
  · rfl
  · split <;> rfl

@[simp] theorem returnL1CacheToMaster_tally (count : Nat) :
    (TlsPoolBucket.returnL1CacheToMaster w t i count).tally a = w.tally a := by
  unfold TlsPoolBucket.returnL1CacheToMaster
  simp only
  split
  · rfl
  split
  · exact check_tally _ _
  split
  · exact check_tally _ _
  · exact check_tally _ _

@[simp] theorem allocFromCache_tally : (Allocator.allocFromCache w t i).2.tally a = w.tally a := by
  unfold Allocator.allocFromCache
  simp only
  split
  · exact check_tally _ _
  split
  · exact (check_tally _ _).trans (check_tally _ _)
  · rfl

@[simp] theorem releaseToCache_tally (useCacheL0 : Bool) (p : Nat) :
    (Allocator.releaseToCache useCacheL0 w t i p).2.tally a = w.tally a := by
  have checked : forall holds holds' holds'' : Bool,
      (((w.check .releaseToCacheBucket holds).check .releaseToCacheBucketData holds').check
        .releaseToCacheRange holds'').tally a = w.tally a := by
    intro holds holds' holds''
    rw [check_tally, check_tally, check_tally]
  unfold Allocator.releaseToCache
  simp only
  split
  · rfl
  split
  · exact checked _ _ _
  split
  · exact (pushL1_tally _).trans (checked _ _ _)
  · exact (pushL1_tally _).trans ((returnL1CacheToMaster_tally _).trans (checked _ _ _))

@[simp] theorem checkAlign_tally (val alignment : Nat) :
    (w.checkAlign val alignment).tally a = w.tally a := by
  simp [checkAlign]

@[simp] theorem checkBucketIndexBySize_tally (scheme : Partitioning) (n : Nat) :
    (w.checkBucketIndexBySize scheme n).tally a = w.tally a := by
  cases scheme <;> simp [checkBucketIndexBySize]

theorem memmove_tally (target source count : Nat) :
    (Allocator.memmove w target source count).tally a = w.tally a := by
  unfold Allocator.memmove
  split <;> rfl

theorem genericRealloc_tally (bytesCount alignment : Nat) :
    (Allocator.genericRealloc w p bytesCount alignment).2.tally a = w.tally a := by
  unfold Allocator.genericRealloc
  simp only
  split
  · rfl
  · split
    · exact memmove_tally (w := { w with heap := (w.heap.alloc bytesCount alignment).2 }) _ p _
    · rfl

theorem moveL0ToL1_tally : forall (remaining k : Nat) (w : World),
    (TlsPoolBucket.moveL0ToL1 t i remaining k w).tally a = w.tally a := by
  intro remaining
  induction remaining with
  | zero => exact fun _ _ => rfl
  | succ remaining ih => exact fun k w => (ih (k + 1) _).trans (pushL1_tally _)

@[simp] theorem destroy_tally : (TlsPoolBucket.destroy w t i).2.tally a = w.tally a := by
  unfold TlsPoolBucket.destroy
  simp only
  split
  · exact (returnL1CacheToMaster_tally _).trans (moveL0ToL1_tally _ 0 w)
  · exact moveL0ToL1_tally _ 0 w

theorem destroyThreadCache_tally (w : World) (t : Nat) :
    (Allocator.destroyThreadCache w t).tally a = w.tally a := by
  have loop : forall (remaining i : Nat) (w : World),
      (Allocator.destroyThreadCacheFrom t remaining i w).tally a = w.tally a := by
    intro remaining
    induction remaining with
    | zero => exact fun _ _ => rfl
    | succ remaining ih => exact fun i w => (ih (i + 1) _).trans destroy_tally
  exact loop maxBucketCount 0 w

/-- `Free` makes an entry for a block of the pool, and for nothing else. -/
theorem free_entry : (Allocator.free w a t p).tally a =
    if kMaxValidAlignment < p ∧ (w.allocs a).findBucket p < (w.allocs a).bucketsCount then
      (w.tally a).free ((w.allocs a).findBucket p)
    else w.tally a := by
  unfold Allocator.free
  simp only
  by_cases readable : kMaxValidAlignment < p
  · rw [if_neg (by simpa [Allocator.isReadable] using readable)]
    by_cases inPool : (w.allocs a).findBucket p < (w.allocs a).bucketsCount
    · have counted : kMaxValidAlignment < p ∧
          (w.allocs a).findBucket p < (w.allocs a).bucketsCount := ⟨readable, inPool⟩
      rw [if_pos inPool, if_pos counted]
      split
      · rw [releaseToCache_tally, tally_free]
      · exact (releaseToCache_tally true p).trans tally_free
    · rw [if_neg inPool, if_neg (fun both => inPool both.2)]
      rfl
  · rw [if_pos (by simpa [Allocator.isReadable] using readable), if_neg (fun both => readable both.1)]

/-! ## Requests that are not counted -/

theorem allocateFromCentral_uncounted {scheme : Partitioning} {alignment : Nat}
    (maxBucketIndex : Nat) : forall (rounds i : Nat) (w : World),
    (Allocator.allocateFromCentral scheme false a alignment maxBucketIndex rounds i w).2.tally a =
      w.tally a := by
  intro rounds
  induction rounds with
  | zero => intro i w; rfl
  | succ rounds ih =>
      intro i w
      have checked : (w.check .allocateBucketIndex (decide (i < maxBucketCount))).tally a =
          w.tally a := check_tally _ _
      unfold Allocator.allocateFromCentral
      simp only
      split
      · split
        · exact checked
        · split
          · exact (ih _ _).trans checked
          · exact checked
      · rfl

/-- The warm-up's requests are made with the statistics switched off. -/
theorem allocate_uncounted {scheme : Partitioning} {bytesCount alignment : Nat} (w : World) :
    (Allocator.allocate scheme false w a t bytesCount alignment).2.tally a = w.tally a := by
  have cached : forall (i : Nat) (w' : World),
      (Allocator.allocateFromThreadCache false a t i w').2.tally a = w'.tally a := by
    intro i w'
    unfold Allocator.allocateFromThreadCache
    simp only
    split
    · split
      · exact allocFromCache_tally
      · exact allocFromCache_tally
    · rfl
  have checked : (((w.check .allocateAlignment (decide (alignment ≤ kMaxValidAlignment))).checkAlign
      bytesCount alignment).checkBucketIndexBySize scheme (align bytesCount alignment)).tally a =
        w.tally a := by
    rw [checkBucketIndexBySize_tally, checkAlign_tally, check_tally]
  unfold Allocator.allocate
  simp only
  split
  · exact check_tally _ _
  split
  · exact (cached _ _).trans checked
  split
  · exact (allocateFromCentral_uncounted _ _ _ _).trans ((cached _ _).trans checked)
  · exact (allocateFromGeneric_tally _ _ _).trans
      ((allocateFromCentral_uncounted _ _ _ _).trans ((cached _ _).trans checked))

end World

end SmMalloc
