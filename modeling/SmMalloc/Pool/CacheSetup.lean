import SmMalloc.Pool.Sound

namespace SmMalloc

open Foundation

/-!
# Thread caches come and go

`Destroy` pours level 0 into level 1, hands all of level 1 back as one chain
and clears the cache bucket.  While level 0 is being poured its blocks are
listed twice, so the proof looks at the cache bucket with level 0 already cut
off; the flush does not see the difference.

`Init` attaches a cache bucket and warms it up.  During the warm-up the blocks
obtained are outside, threaded through their own first bytes.
-/

variable {scheme : Partitioning} {pool : Pool scheme} {m m' : Machine} {w : World}
variable {a i t o p : Nat} {rest out : List Nat}

/-! ## Pouring level 0 into level 1 -/

theorem Machine.setTls_setTls (m : Machine) (t i : Nat) (first second : TlsPoolBucket) :
    (m.setTls t i first).setTls t i second = m.setTls t i second := by
  simp [Machine.setTls]

/-- The cache bucket with `more` on top of its level 1. -/
structure TlsPoolBucket.Extends (old new : TlsPoolBucket) (more : List Nat) : Prop where
  pBucket : new.pBucket = old.pBucket
  pBucketData : new.pBucketData = old.pBucketData
  pStorageL1 : new.pStorageL1 = old.pStorageL1
  storageL0 : new.storageL0 = old.storageL0
  numElementsL0 : new.numElementsL0 = old.numElementsL0
  numElementsL1 : new.numElementsL1 = old.numElementsL1 + more.length
  offsetsL1 : new.offsetsL1 = old.offsetsL1 ++ more

/-- The stack has room for all of level 0 on top of a full level 1. -/
theorem moveL0ToL1_extends : forall (remaining k : Nat) (w : World),
    (w.tls t i).Backed w.heap ->
    (w.tls t i).numElementsL1 + remaining ≤ (w.tls t i).maxElementsCount + maxCacheItemsCount ->
    (TlsPoolBucket.moveL0ToL1 t i remaining k w).failed = w.failed ∧
      (TlsPoolBucket.moveL0ToL1 t i remaining k w).faults = w.faults ∧
      ∃ self, (TlsPoolBucket.moveL0ToL1 t i remaining k w).toMachine =
          w.toMachine.setTls t i self ∧
        (w.tls t i).Extends self
          ((List.range' k remaining).map (fun j => ((w.tls t i).storageL0 j).toNat)) := by
  intro remaining
  induction remaining with
  | zero =>
      intro k w _ _
      refine ⟨rfl, rfl, w.tls t i, ?_, ⟨rfl, rfl, rfl, rfl, rfl, rfl, ?_⟩⟩
      · simp [TlsPoolBucket.moveL0ToL1, Machine.setTls]
      · exact (List.append_nil _).symm
  | succ remaining ih =>
      intro k w backed fits
      have pushed := World.pushL1_eq backed (by omega) ((w.tls t i).storageL0 k)
      have slot := congrArg (fun w : World => w.tls t i) pushed
      simp only [World.setTls_toMachine, Machine.setTls_same] at slot
      have backed' : ((w.pushL1 t i ((w.tls t i).storageL0 k)).tls t i).Backed
          (w.pushL1 t i ((w.tls t i).storageL0 k)).heap := by
        rw [slot, pushed]
        exact ⟨backed.stored, backed.room⟩
      rcases ih (k + 1) _ backed' (by rw [slot]; simp only; omega) with
        ⟨failed, faults, self, machine, extend⟩
      refine ⟨failed.trans (World.pushL1_failed _ _ _ _),
        faults.trans (World.pushL1_faults backed (by omega) _), self, ?_, ?_⟩
      · rw [TlsPoolBucket.moveL0ToL1, machine, pushed, World.setTls_toMachine,
          Machine.setTls_setTls]
      · rw [slot] at extend
        have top := TlsPoolBucket.stack_update (w.tls t i).storageL1 (w.tls t i).numElementsL1
          ((w.tls t i).storageL0 k)
        refine ⟨extend.pBucket, extend.pBucketData, extend.pStorageL1, extend.storageL0,
          extend.numElementsL0, ?_, ?_⟩
        · rw [extend.numElementsL1]
          simp only [List.length_map, List.length_range']
          omega
        · rw [extend.offsetsL1, TlsPoolBucket.offsetsL1, top, List.append_assoc]
          rfl

/-! ## Destroying a cache bucket -/

/-- An empty cache bucket may be detached. -/
theorem PoolInv.detach (inv : PoolInv pool a m out) {self : TlsPoolBucket}
    (empty : m.cached a i t = []) (detached : self.pBucket = none) :
    PoolInv pool a (m.setTls t i self) out := by
  have allocs : (m.setTls t i self).allocs a = m.allocs a := rfl
  refine inv.frame allocs (fun _ _ _ => rfl) ?_ ?_ inv.buffer
  · intro u j
    by_cases same : u = t ∧ j = i
    · rcases same with ⟨rfl, rfl⟩
      rw [empty, Machine.cached, Machine.setTls_same, detached, if_neg (by intro h; cases h)]
    · exact cached_congr (Machine.setTls_of_ne _ _ _ _ same)
  · refine fun u j => inv.attached_setTls ?_ u j
    intro k owned
    rw [detached] at owned
    cases owned

/-- A flush looks only at level 1 and the base pointer of the cache bucket. -/
theorem Machine.flush_congr {first final : TlsPoolBucket} (second : TlsPoolBucket) (count : Nat)
    (pBucketData : first.pBucketData = second.pBucketData)
    (storageL1 : first.storageL1 = second.storageL1)
    (numElementsL1 : first.numElementsL1 = second.numElementsL1) :
    ((m.setTls t i first).flush a i t count).setTls t i final =
      ((m.setTls t i second).flush a i t count).setTls t i final := by
  simp only [Machine.flush, Machine.setTls_same, Machine.setTls_setTls, pBucketData, storageL1,
    numElementsL1]
  simp [PoolBucket.freeInterval, Machine.setTls, Machine.setBucket, Machine.bucket]

theorem flush_others {j : Nat} (count : Nat) (other : j ≠ i) :
    (m.flush a i t count).tls t j = m.tls t j :=
  Machine.setTls_of_ne _ _ _ _ (fun same => other same.2)

theorem offsets_of_empty {slot : TlsPoolBucket} (numElementsL0 : slot.numElementsL0 = 0)
    (numElementsL1 : slot.numElementsL1 = 0) : slot.offsets = [] := by
  simp [TlsPoolBucket.offsets, TlsPoolBucket.offsetsL0, TlsPoolBucket.offsetsL1, numElementsL0,
    numElementsL1]

/-- The machine after `Destroy` of a cache bucket. -/
structure Destroyed (pool : Pool scheme) (a t i : Nat) (out : List Nat) (m m' : Machine) :
    Prop where
  inv : PoolInv pool a m' out
  confined : Confined pool a t out m m'
  slot : (m'.tls t i).Idle
  others : forall j, j ≠ i -> m'.tls t j = m.tls t j
  heap : m'.heap = m.heap
  storageL0 : (m'.tls t i).storageL0 = (m.tls t i).storageL0

theorem Confined.setTls (self : TlsPoolBucket) :
    Confined pool a t out m (m.setTls t i self) :=
  Confined.of_mem_eq (fun _ _ => rfl) (fun _ other => Machine.setTls_threads self other) rfl

/-- Clearing a cache bucket from which everything has been handed back. -/
theorem Destroyed.of_empty (inv : PoolInv pool a m' out) (confined : Confined pool a t out m m')
    (others : forall j, j ≠ i -> m'.tls t j = m.tls t j) (heap : m'.heap = m.heap)
    (empty : m'.cached a i t = []) {self : TlsPoolBucket} (idle : self.Idle)
    (storageL0 : self.storageL0 = (m.tls t i).storageL0) :
    Destroyed pool a t i out m (m'.setTls t i self) where
  inv := inv.detach empty idle.pBucket
  confined := confined.trans (Confined.setTls self)
  slot := by rw [Machine.setTls_same]; exact idle
  others := by
    intro j other
    rw [Machine.setTls_of_ne _ _ _ _ (fun same => other same.2)]
    exact others j other
  heap := heap
  storageL0 := by rw [Machine.setTls_same]; exact storageL0

/-- Clearing a cache bucket after all of its level 1 has been flushed. -/
theorem Destroyed.of_flush {cut self : TlsPoolBucket} {n : Nat}
    (inv : PoolInv pool a (m.setTls t i cut) out) (owner : cut.pBucket = some (a, i))
    (numElementsL0 : cut.numElementsL0 = 0) (all : n + 1 = cut.numElementsL1)
    (idle : self.Idle) (storageL0 : self.storageL0 = (m.tls t i).storageL0) :
    Destroyed pool a t i out m (((m.setTls t i cut).flush a i t n).setTls t i self) := by
  have slot := (m.setTls t i cut).flush_slot a i t n
  rw [Machine.setTls_same] at slot
  have released := inv.flush (t := t) (i := i) (by rw [Machine.setTls_same]; exact owner)
    (by rw [Machine.setTls_same]; exact Nat.le_of_eq all)
  refine Destroyed.of_empty released.inv ((Confined.setTls cut).trans released.confined) ?_ rfl ?_
    idle storageL0
  · exact fun j other => (flush_others n other).trans
      (Machine.setTls_of_ne _ _ _ _ (fun same => other same.2))
  · rw [cached_of_owner (by rw [slot]; exact owner), slot]
    apply offsets_of_empty
    · exact numElementsL0
    · change cut.numElementsL1 - (n + 1) = 0
      omega

/-- Once level 0 has been poured into level 1 and cut off, the cache bucket has
the blocks that it had before. -/
theorem PoolInv.pour (inv : PoolInv pool a m out) (owner : (m.tls t i).pBucket = some (a, i))
    {full : TlsPoolBucket} (extend : (m.tls t i).Extends full
      ((List.range' 0 (m.tls t i).numElementsL0).map
        (fun j => ((m.tls t i).storageL0 j).toNat))) :
    PoolInv pool a (m.setTls t i { full with numElementsL0 := 0 }) out := by
  apply inv.exchange owner
  · exact extend.pBucket
  · exact extend.pBucketData
  · exact extend.pStorageL1
  · apply List.Perm.append_right
    have level0 : { full with numElementsL0 := 0 }.offsetsL0 = [] := rfl
    have level1 : { full with numElementsL0 := 0 }.offsetsL1 = full.offsetsL1 := rfl
    rw [TlsPoolBucket.offsets, level0, level1, extend.offsetsL1, List.nil_append,
      TlsPoolBucket.offsets, TlsPoolBucket.offsetsL0, List.range_eq_range']
    exact List.perm_append_comm
  · exact fun _ _ => rfl

/-- `Destroy` -/
theorem PoolInv.destroy (inv : PoolInv pool a w.toMachine out)
    (slot : (w.tls t i).Idle ∨ w.Caching a i t) :
    let destroyed := TlsPoolBucket.destroy w t i
    destroyed.1 = (w.tls t i).pStorageL1 ∧ destroyed.2.failed = w.failed ∧
      destroyed.2.faults = w.faults ∧
      Destroyed pool a t i out w.toMachine destroyed.2.toMachine := by
  rcases slot with idle | caching
  · have unmoved : TlsPoolBucket.moveL0ToL1 t i (w.tls t i).numElementsL0 0 w = w := by
      rw [idle.numElementsL0]; rfl
    have nothing : ¬ (w.tls t i).numElementsL1 > 0 := by
      rw [idle.numElementsL1]; decide
    simp only [TlsPoolBucket.destroy, unmoved, if_neg nothing]
    refine ⟨trivial, rfl, rfl, ?_⟩
    apply Destroyed.of_empty inv (Confined.refl pool a t out _) (fun _ _ => rfl) rfl
    · exact cached_of_idle idle
    · exact ⟨rfl, rfl, rfl, rfl, rfl, rfl⟩
    · rfl
  · have owner := caching.pBucket
    have levelL0 := caching.bounded.levelL0
    have levelL1 := caching.bounded.levelL1
    rcases moveL0ToL1_extends (w.tls t i).numElementsL0 0 w caching.backed (by omega) with
      ⟨failed, faults, full, machine, extend⟩
    obtain ⟨poured, isPoured⟩ : ∃ poured, poured =
        TlsPoolBucket.moveL0ToL1 t i (w.tls t i).numElementsL0 0 w := ⟨_, rfl⟩
    rw [← isPoured] at failed faults machine
    have slot : poured.tls t i = full := by rw [machine, Machine.setTls_same]
    obtain ⟨cut, isCut⟩ : ∃ cut, cut = { full with numElementsL0 := 0 } := ⟨_, rfl⟩
    have cutInv : PoolInv pool a (w.toMachine.setTls t i cut) out := isCut ▸ inv.pour owner extend
    have cutOwner : cut.pBucket = some (a, i) := by
      rw [isCut]
      exact extend.pBucket.trans owner
    have level0 : cut.numElementsL0 = 0 := by rw [isCut]
    have level1 : cut.numElementsL1 = full.numElementsL1 := by rw [isCut]
    simp only [TlsPoolBucket.destroy, ← isPoured, slot]
    by_cases nonempty : full.numElementsL1 > 0
    · rcases returnL1_cases (w := poured) full.numElementsL1
        (by rw [slot]; exact extend.pBucket.trans owner) with ⟨-, nothing⟩ | ⟨n, amount, flushed⟩
      · rw [slot] at nothing
        omega
      rw [slot, Nat.min_self] at amount
      rw [if_pos nonempty, flushed]
      have flushedSlot := poured.toMachine.flush_slot a i t n
      rw [slot] at flushedSlot
      have storage : ((poured.toMachine.flush a i t n).tls t i).pStorageL1 =
          (w.tls t i).pStorageL1 := by
        rw [flushedSlot]
        exact extend.pStorageL1
      refine ⟨storage, failed, faults, ?_⟩
      change Destroyed pool a t i out w.toMachine ((poured.toMachine.flush a i t n).setTls t i _)
      -- the flush does not see that level 0 has been cut off
      rw [machine, Machine.flush_congr cut n (by rw [isCut]) (by rw [isCut])
        (by rw [isCut])]
      apply Destroyed.of_flush cutInv cutOwner level0 (amount.trans level1.symm)
      · exact ⟨rfl, rfl, rfl, rfl, rfl, rfl⟩
      · rw [machine] at flushedSlot
        exact (congrArg TlsPoolBucket.storageL0 flushedSlot).trans extend.storageL0
    · rw [if_neg nonempty, slot]
      refine ⟨extend.pStorageL1, failed, faults, ?_⟩
      change Destroyed pool a t i out w.toMachine (poured.toMachine.setTls t i _)
      rw [machine, Machine.setTls_setTls, ← Machine.setTls_setTls _ t i cut]
      apply Destroyed.of_empty cutInv (Confined.setTls cut)
      · exact fun j other => Machine.setTls_of_ne _ _ _ _ (fun same => other same.2)
      · rfl
      · rw [cached_of_owner (by rw [Machine.setTls_same]; exact cutOwner), Machine.setTls_same]
        exact offsets_of_empty level0 (level1.trans (Nat.eq_zero_of_not_pos nonempty))
      · exact ⟨rfl, rfl, rfl, rfl, rfl, rfl⟩
      · exact extend.storageL0

namespace Sound

/-- The stack of a cache bucket is not the pool buffer. -/
theorem stack_ne_base (sound : Sound pool a rest m out) (t i : Nat) :
    (m.tls t i).pStorageL1 ≠ pool.base := by
  intro same
  have readable := pool.base_readable
  have nonzero : pool.base ≠ 0 := by omega
  have stack : pool.base ∈ m.heapShares pool rest out (HeapHolder.stack t i) := by
    simp only [Machine.heapShares, stackOf, same, if_neg nonzero, List.mem_singleton]
  have owned : pool.base ∈ m.heapShares pool rest out HeapHolder.pool :=
    List.mem_singleton.mpr rfl
  cases sound.ledger.custody.holder_unique stack owned

end Sound

/-- One round of `DestroyThreadCache`. -/
def World.destroySlot (w : World) (t i : Nat) : World :=
  let destroyed := TlsPoolBucket.destroy w t i
  { destroyed.2 with heap := destroyed.2.heap.free destroyed.1 }

/-- `DestroyThreadCache` has worked through the cache buckets from `i` to `last`. -/
structure CacheDestroyed (pool : Pool scheme) (a t i last : Nat) (rest out : List Nat)
    (w w' : World) : Prop where
  sound : Sound pool a rest w'.toMachine out
  confined : Confined pool a t out w.toMachine w'.toMachine
  idles : forall j, i ≤ j -> j < last -> (w'.tls t j).Idle
  others : forall j, j < i ∨ last ≤ j -> w'.tls t j = w.tls t j
  storageL0 : forall j, (w'.tls t j).storageL0 = (w.tls t j).storageL0
  live : forall r, r ∈ w'.heap.live -> r ∈ w.heap.live
  failed : w'.failed = w.failed
  faults : w'.faults = w.faults

namespace Sound

theorem destroySlot (sound : Sound pool a rest w.toMachine out) (t i : Nat) :
    CacheDestroyed pool a t i (i + 1) rest out w (w.destroySlot t i) := by
  obtain ⟨destroyed, isDestroyed⟩ : ∃ destroyed, destroyed = TlsPoolBucket.destroy w t i :=
    ⟨_, rfl⟩
  have opened : w.destroySlot t i =
      { destroyed.2 with heap := destroyed.2.heap.free destroyed.1 } := by
    rw [isDestroyed]
    rfl
  rcases sound.inv.destroy (sound.idle_or_caching t i) with ⟨stack, failed, faults, done⟩
  rw [← isDestroyed] at stack failed faults done
  have heap : destroyed.2.heap = w.heap := done.heap
  have threads : forall u j, ¬ (u = t ∧ j = i) -> destroyed.2.tls u j = w.tls u j := by
    intro u j different
    by_cases same : u = t
    · subst same
      exact done.others j (fun equal => different ⟨rfl, equal⟩)
    · exact congrFun (done.confined.threads u same) j
  rw [opened]
  refine ⟨⟨?_, ?_, ?_, sound.addresses⟩, done.confined.trans ?_, ?_, ?_, ?_, ?_, failed,
    faults⟩
  · apply done.inv.of_heap
    rw [stack]
    exact GenericAllocator.mem_free done.inv.buffer (sound.stack_ne_base t i).symm
  · intro u j
    by_cases same : u = t ∧ j = i
    · rcases same with ⟨rfl, rfl⟩
      exact Or.inl done.slot
    · change (destroyed.2.tls u j).Idle ∨ (destroyed.2.tls u j).Serving a j
      rw [threads u j same]
      exact sound.slots u j
  · apply (sound.ledger.release_stack (t := t) (i := i) done.slot.pStorageL1).congr
    · change destroyed.2.heap.free destroyed.1 = w.heap.free (w.tls t i).pStorageL1
      rw [heap, stack]
    · intro u j
      by_cases same : u = t ∧ j = i
      · rcases same with ⟨rfl, rfl⟩
        rw [Machine.setTls_same]
        exact TlsPoolBucket.SameStack.refl _
      · rw [Machine.setTls_of_ne _ _ _ _ same]
        change (w.tls u j).SameStack (destroyed.2.tls u j)
        rw [threads u j same]
        exact TlsPoolBucket.SameStack.refl _
    · rfl
  · exact Confined.of_mem_eq (fun _ _ => rfl) (fun _ _ => rfl) rfl
  · intro j low high
    have here : j = i := by omega
    exact here ▸ done.slot
  · intro j outside
    exact done.others j (by omega)
  · intro j
    by_cases here : j = i
    · subst here
      exact done.storageL0
    · exact congrArg TlsPoolBucket.storageL0 (done.others j here)
  · intro r member
    change r ∈ (destroyed.2.heap.free destroyed.1).live at member
    rw [heap] at member
    unfold GenericAllocator.free at member
    split at member
    · exact member
    · exact (List.mem_filter.mp member).1

theorem destroyFrom : forall (remaining i : Nat) (w : World),
    Sound pool a rest w.toMachine out ->
    CacheDestroyed pool a t i (i + remaining) rest out w
      (Allocator.destroyThreadCacheFrom t remaining i w) := by
  intro remaining
  induction remaining with
  | zero =>
      intro i w sound
      exact ⟨sound, Confined.refl pool a t out _, fun j low high => absurd high (by omega),
        fun _ _ => rfl, fun _ => rfl, fun _ member => member, rfl, rfl⟩
  | succ remaining ih =>
      intro i w sound
      have here := sound.destroySlot t i
      have later := ih (i + 1) (w.destroySlot t i) here.sound
      have continued : Allocator.destroyThreadCacheFrom t (remaining + 1) i w =
          Allocator.destroyThreadCacheFrom t remaining (i + 1) (w.destroySlot t i) := rfl
      rw [continued]
      refine ⟨later.sound, here.confined.trans later.confined, ?_, ?_,
        fun j => (later.storageL0 j).trans (here.storageL0 j),
        fun r member => here.live r (later.live r member), later.failed.trans here.failed,
        later.faults.trans here.faults⟩
      · intro j low high
        by_cases first : j = i
        · subst first
          rw [later.others j (by omega)]
          exact here.idles j (Nat.le_refl j) (by omega)
        · exact later.idles j (by omega) (by omega)
      · intro j outside
        exact (later.others j (by omega)).trans (here.others j (by omega))

/-- `DestroyThreadCache` -/
theorem destroyThreadCache (sound : Sound pool a rest w.toMachine out) (t : Nat) :
    CacheDestroyed pool a t 0 maxBucketCount rest out w (Allocator.destroyThreadCache w t) := by
  have done := sound.destroyFrom (t := t) maxBucketCount 0 w
  rw [Nat.zero_add] at done
  exact done

/-- No bucket has an index beyond `maxBucketCount`. -/
theorem idle_beyond (sound : Sound pool a rest m out) {j : Nat} (beyond : maxBucketCount ≤ j) :
    (m.tls t j).Idle := by
  rcases sound.slots t j with idle | serving
  · exact idle
  · have bound := (sound.inv.attached t j j serving.pBucket).2.bound
    have small := pool.count_le
    omega

end Sound

/-- Afterwards no cache bucket of the thread is in use. -/
theorem CacheDestroyed.idle {w' : World}
    (destroyed : CacheDestroyed pool a t 0 maxBucketCount rest out w w') (j : Nat) :
    (w'.tls t j).Idle := by
  by_cases inside : j < maxBucketCount
  · exact destroyed.idles j (Nat.zero_le j) inside
  · exact destroyed.sound.idle_beyond (Nat.le_of_not_lt inside)

end SmMalloc
