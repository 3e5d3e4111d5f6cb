import SmMalloc.Pool.Warmup

namespace SmMalloc

open Foundation

/-!
# Creating a thread cache

`Init` attaches a cache bucket to a stack from the fallback heap and warms it
up.  The warm-up of bucket `i` can spill only to buckets above `i`, whose cache
buckets are still at rest, so everything that it takes from them goes straight
back.  How many blocks a cache bucket ends up with follows from conservation:
the blocks that it has are the ones that its central list has lost.
-/

variable {scheme : Partitioning} {pool : Pool scheme} {m m' : Machine} {w w' : World}
variable {a i t o p v : Nat} {rest out : List Nat}

/-! ## Attaching a cache bucket -/

/-- A cache bucket as `Init` attaches it, with `stack` for its level 1. -/
structure TlsPoolBucket.Attaches (pool : Pool scheme) (a i stack : Nat) (slot : TlsPoolBucket) :
    Prop where
  pBucket : slot.pBucket = some (a, i)
  pBucketData : slot.pBucketData = pool.pData i
  pStorageL1 : slot.pStorageL1 = stack
  numElementsL0 : slot.numElementsL0 = 0
  numElementsL1 : slot.numElementsL1 = 0
  capacity : slot.maxElementsCount ≠ 1
  slots : slot.maxElementsCount + maxCacheItemsCount < 2 ^ 32

theorem TlsPoolBucket.Attaches.serving {stack : Nat} {slot : TlsPoolBucket}
    (attaches : slot.Attaches pool a i stack) : slot.Serving a i where
  pBucket := attaches.pBucket
  bounded := by
    have level0 := attaches.numElementsL0
    have level1 := attaches.numElementsL1
    have capacity := attaches.capacity
    exact ⟨by omega, by omega, by omega, by omega, attaches.slots⟩

/-- A cache bucket at rest may be attached, with a stack fresh from the fallback heap. -/
theorem Sound.attach (sound : Sound pool a rest m out) (bound : i < pool.bucketsCount)
    (idle : (m.tls t i).Idle) {bytesCount alignment : Nat}
    (served : m.heap.answer bytesCount alignment ≠ 0) {self : TlsPoolBucket}
    (attaches : self.Attaches pool a i (m.heap.answer bytesCount alignment))
    (stack : self.stackRegion = ⟨m.heap.answer bytesCount alignment, bytesCount⟩) :
    Sound pool a rest
      ({ m with heap := (m.heap.alloc bytesCount alignment).2 }.setTls t i self) out where
  inv := by
    refine PoolInv.frame (m := m) sound.inv rfl (fun _ _ _ => rfl) ?_ ?_
      (GenericAllocator.mem_alloc sound.inv.buffer)
    · intro u j
      by_cases same : u = t ∧ j = i
      · rcases same with ⟨rfl, rfl⟩
        rw [cached_of_idle idle, Machine.cached, Machine.setTls_same, if_pos attaches.pBucket]
        exact offsets_of_empty attaches.numElementsL0 attaches.numElementsL1
      · exact cached_congr (Machine.setTls_of_ne _ _ _ _ same)
    · refine fun u j => sound.inv.attached_setTls ?_ u j
      intro k owned
      rw [attaches.pBucket] at owned
      injection owned with pair
      injection pair with _ index
      refine ⟨index.symm, bound, attaches.pBucketData, ?_⟩
      rw [attaches.pStorageL1]
      exact served
  slots := by
    intro u j
    by_cases same : u = t ∧ j = i
    · rcases same with ⟨rfl, rfl⟩
      rw [Machine.setTls_same]
      exact Or.inr attaches.serving
    · rw [Machine.setTls_of_ne _ _ _ _ same]
      exact sound.slots u j
  ledger := sound.ledger.acquire_stack idle.pStorageL1 served stack
  addresses := sound.addresses

/-! ## Init -/

/-- The blocks that a warm-up asks for. -/
def CacheWarmupOptions.amount (warmupOptions : CacheWarmupOptions) (maxElementsCount : Nat) : Nat :=
  if warmupOptions = .cold then 0
  else if warmupOptions = .warm then maxElementsCount / 2 else maxElementsCount

theorem CacheWarmupOptions.amount_le (warmupOptions : CacheWarmupOptions) (n : Nat) :
    warmupOptions.amount n ≤ n := by
  unfold amount
  split
  · exact Nat.zero_le n
  · split
    · exact Nat.div_le_self n 2
    · exact Nat.le_refl n

/-- The capacity that `Init` computes from the size of the stack. -/
theorem stackElements_capacity {v : Nat} (slots : v + maxCacheItemsCount < 2 ^ 32) :
    (stackElements v + 2 ^ 32 - maxCacheItemsCount) % 2 ^ 32 = v := by
  unfold stackElements
  unfold maxCacheItemsCount at *
  omega

/-- `Init` up to the warm-up. -/
def World.attachSlot (w : World) (t i pCacheStack maxElementsNum a : Nat) : World :=
  let checked := w.check .tlsInitCapacity (decide (maxElementsNum ≥ maxCacheItemsCount + 2))
  checked.setTls t i { w.tls t i with
    pStorageL1 := pCacheStack
    numElementsL1 := 0
    numElementsL0 := 0
    maxElementsCount := (maxElementsNum + 2 ^ 32 - maxCacheItemsCount) % 2 ^ 32
    pBucket := some (a, i)
    pBucketData := (w.bucket a i).pData }

/-- For a cache bucket at rest, `Init` is to attach it and to warm it up. -/
theorem init_eq (warmupOptions : CacheWarmupOptions) {pCacheStack maxElementsNum : Nat}
    (idle : (w.tls t i).Idle) (bound : i < (w.allocs a).bucketsCount) :
    let attached := w.attachSlot t i pCacheStack maxElementsNum a
    let num := warmupOptions.amount ((maxElementsNum + 2 ^ 32 - maxCacheItemsCount) % 2 ^ 32)
    let filled := TlsPoolBucket.warmupFill scheme a t i num 0 attached
    let warmed := TlsPoolBucket.warmupDrain t i num filled.1 filled.2
    TlsPoolBucket.init scheme w t pCacheStack maxElementsNum warmupOptions a i =
      if warmupOptions = .cold then attached
      else warmed.check .tlsInitCount (decide ((warmed.tls t i).getElementsCount = num)) := by
  have clean : forall holds : Bool, holds = true -> w.check .tlsInitClean holds = w :=
    fun holds fine => World.check_true w fine
  have clean0 := clean _ (decide_eq_true idle.numElementsL0)
  have clean1 := clean _ (decide_eq_true idle.numElementsL1)
  have clean2 := clean (w.tls t i).pBucket.isNone (by rw [idle.pBucket]; rfl)
  have clean3 := clean _ (decide_eq_true idle.pBucketData)
  have clean4 := clean _ (decide_eq_true idle.pStorageL1)
  have clean5 := clean _ (decide_eq_true idle.maxElementsCount)
  have sameMachine := World.check_toMachine w .tlsInitCapacity
    (decide (maxElementsNum ≥ maxCacheItemsCount + 2))
  have given : forall w' : World, w'.check .tlsInitBucket (some (a, i)).isSome = w' :=
    fun w' => World.check_true w' rfl
  simp only [TlsPoolBucket.init, clean0, clean1, clean2, clean3, clean4, clean5, sameMachine,
    if_pos bound]
  have slot : ((w.check .tlsInitCapacity
      (decide (maxElementsNum ≥ maxCacheItemsCount + 2))).check .tlsInitBucket
        (some (a, i)).isSome).setTls t i { w.tls t i with
          pStorageL1 := pCacheStack
          numElementsL1 := 0
          numElementsL0 := 0
          maxElementsCount := (maxElementsNum + 2 ^ 32 - maxCacheItemsCount) % 2 ^ 32
          pBucket := some (a, i)
          pBucketData := (((w.check .tlsInitCapacity
            (decide (maxElementsNum ≥ maxCacheItemsCount + 2))).check .tlsInitBucket
              (some (a, i)).isSome).bucket a i).pData } =
      w.attachSlot t i pCacheStack maxElementsNum a := by
    rw [given, World.attachSlot, sameMachine]
  rw [slot]
  generalize w.attachSlot t i pCacheStack maxElementsNum a = attached
  generalize (maxElementsNum + 2 ^ 32 - maxCacheItemsCount) % 2 ^ 32 = capacity
  have num (started : ¬ warmupOptions = .cold) :
      (if warmupOptions = .warm then capacity / 2 else capacity) =
        warmupOptions.amount capacity := by
    rw [CacheWarmupOptions.amount, if_neg started]
  cases warmupOptions with
  | cold => simp only [if_true]
  | warm =>
      have started : ¬ CacheWarmupOptions.warm = .cold := by decide
      rw [num started, if_neg started]
  | hot =>
      have started : ¬ CacheWarmupOptions.hot = .cold := by decide
      rw [num started, if_neg started]

theorem attachSlot_attaches (represents : pool.Represents (w.allocs a))
    (bound : i < pool.bucketsCount) (pCacheStack : Nat) {v : Nat} (low : v ≠ 1)
    (slots : v + maxCacheItemsCount < 2 ^ 32) :
    ∃ self, self.Attaches pool a i pCacheStack ∧ self.maxElementsCount = v ∧
      self.storageL0 = (w.tls t i).storageL0 ∧
      (w.attachSlot t i pCacheStack ((v + maxCacheItemsCount) % 2 ^ 32) a).toMachine =
        w.toMachine.setTls t i self := by
  have capacity : ((v + maxCacheItemsCount) % 2 ^ 32 + 2 ^ 32 - maxCacheItemsCount) % 2 ^ 32 = v :=
    stackElements_capacity slots
  refine ⟨{ w.tls t i with
    pStorageL1 := pCacheStack
    numElementsL1 := 0
    numElementsL0 := 0
    maxElementsCount := ((v + maxCacheItemsCount) % 2 ^ 32 + 2 ^ 32 - maxCacheItemsCount) % 2 ^ 32
    pBucket := some (a, i)
    pBucketData := (w.bucket a i).pData }, ?_, capacity, rfl, ?_⟩
  · exact ⟨rfl, represents.pData i bound, rfl, rfl, rfl, fun one => low (capacity.symm.trans one),
      capacity.symm ▸ slots⟩
  · rw [World.attachSlot, World.setTls_toMachine, World.check_toMachine]

/-- One round of `CreateThreadCache`. -/
def World.createSlot (scheme : Partitioning) (w : World) (a t i elementsNum : Nat)
    (warmupOptions : CacheWarmupOptions) : World :=
  let localStack := w.heap.alloc (stackElements elementsNum * 4) cacheLineSize
  TlsPoolBucket.init scheme { w with heap := localStack.2 } t localStack.1
    (stackElements elementsNum) warmupOptions a i

/-- The list of blocks with which the warm-up of that round ends. -/
def World.warmupFilled (scheme : Partitioning) (w : World) (a t i elementsNum : Nat)
    (warmupOptions : CacheWarmupOptions) : Nat × World :=
  let localStack := w.heap.alloc (stackElements elementsNum * 4) cacheLineSize
  let attached := { w with heap := localStack.2 }.attachSlot t i localStack.1
    (stackElements elementsNum) a
  TlsPoolBucket.warmupFill scheme a t i (warmupOptions.amount elementsNum) 0 attached

/-- The loop over this list ends within as many rounds as blocks were asked for. -/
def World.WarmupEnds (scheme : Partitioning) (w : World) (a t i elementsNum : Nat)
    (warmupOptions : CacheWarmupOptions) : Prop :=
  let filled := w.warmupFilled scheme a t i elementsNum warmupOptions
  forall more, TlsPoolBucket.warmupDrain t i (warmupOptions.amount elementsNum + more) filled.1
      filled.2 =
    TlsPoolBucket.warmupDrain t i (warmupOptions.amount elementsNum) filled.1 filled.2

/-- The fallback heap serves every stack that `CreateThreadCache` asks for. -/
def World.stacksServed (scheme : Partitioning) (a t : Nat) (warmupOptions : CacheWarmupOptions) :
    Nat -> List Nat -> World -> Bool
  | _, [], _ => true
  | i, elementsNum :: options, w =>
      decide ((w.allocs a).bucketsCount ≤ i) ||
        (decide (w.heap.answer (stackElements elementsNum * 4) cacheLineSize ≠ 0) &&
          stacksServed scheme a t warmupOptions (i + 1) options
            (w.createSlot scheme a t i elementsNum warmupOptions))

/-! ## What a warm-up achieves -/

/-- When only thread `t` may have changed anything in a bucket, its cache and
the central list together still have the same blocks. -/
theorem BucketInv.share {central central' client : List Nat}
    (before : BucketInv pool m a i central client) (after : BucketInv pool m' a i central' client)
    (threads : forall u, u ≠ t -> m'.tls u = m.tls u) :
    (central' ++ m'.cached a i t).Perm (central ++ m.cached a i t) := by
  have different : Holder.central ≠ Holder.cache t := by
    intro h
    cases h
  apply before.custody.pair_perm after.custody different
  intro other notCentral notCache
  cases other with
  | central => exact absurd rfl notCentral
  | cache u =>
      apply cached_congr
      rw [threads u (fun same => notCache (congrArg _ same))]
  | client => rfl

/-- A cache bucket that was at rest has just the blocks that the central list
has lost since. -/
theorem BucketInv.lost {central central' client : List Nat}
    (before : BucketInv pool m a i central client) (after : BucketInv pool m' a i central' client)
    (threads : forall u, u ≠ t -> m'.tls u = m.tls u) (idle : (m.tls t i).Idle)
    (owner : (m'.tls t i).pBucket = some (a, i)) :
    central'.length + (m'.tls t i).getElementsCount = central.length := by
  have perm := (before.share after threads).length_eq
  rw [List.length_append, List.length_append, cached_of_idle idle, cached_of_owner owner,
    TlsPoolBucket.offsets_length, List.length_nil] at perm
  exact perm

/-- Cache bucket `i` of thread `t`, created with capacity `v`, has as many
blocks as were asked for and the central list had. -/
structure Warmed (pool : Pool scheme) (a t i : Nat) (out : List Nat)
    (warmupOptions : CacheWarmupOptions) (v : Nat) (m m' : Machine) : Prop where
  serving : (m'.tls t i).Serving a i
  capacity : (m'.tls t i).maxElementsCount = v
  level0 : (m'.tls t i).numElementsL0 = 0
  level1 : forall central, BucketInv pool m a i central (pool.offsets out i) ->
    (m'.tls t i).numElementsL1 = min (warmupOptions.amount v) central.length

/-- The options for cache bucket `i` ask for no more blocks than there are. -/
def Affordable (pool : Pool scheme) (a i : Nat) (out : List Nat)
    (warmupOptions : CacheWarmupOptions) (v : Nat) (m : Machine) : Prop :=
  forall central, BucketInv pool m a i central (pool.offsets out i) ->
    warmupOptions.amount v ≤ central.length

/-- One round of `CreateThreadCache` has created cache bucket `i`. -/
structure SlotCreated (pool : Pool scheme) (a t i : Nat) (rest out : List Nat)
    (warmupOptions : CacheWarmupOptions) (v : Nat) (w w' : World) : Prop where
  sound : Sound pool a rest w'.toMachine out
  confined : Confined pool a t out w.toMachine w'.toMachine
  others : forall j, j ≠ i -> w'.tls t j = w.tls t j
  warmed : Warmed pool a t i out warmupOptions v w.toMachine w'.toMachine
  beyond : forall k, maxCacheItemsCount ≤ k -> (w'.tls t i).storageL0 k = (w.tls t i).storageL0 k
  live : w'.heap.live = (w'.tls t i).stackRegion :: w.heap.live
  faults : w'.faults = w.faults
  failed : 2 ≤ v -> Affordable pool a i out warmupOptions v w.toMachine -> w'.failed = w.failed
  ends : w.WarmupEnds scheme a t i v warmupOptions
  quiet : Unspilled pool a i out (warmupOptions.amount v) w.toMachine -> Quiet a i w w'

namespace Sound

/-- A cache bucket with its stack, before the warm-up. -/
theorem attachSlot (sound : Sound pool a rest w.toMachine out) (bound : i < pool.bucketsCount)
    (idle : (w.tls t i).Idle) (low : v ≠ 1) (slots : v + maxCacheItemsCount < 2 ^ 32)
    (served : w.heap.answer (stackElements v * 4) cacheLineSize ≠ 0) :
    let localStack := w.heap.alloc (stackElements v * 4) cacheLineSize
    let attached := { w with heap := localStack.2 }.attachSlot t i localStack.1
      (stackElements v) a
    SlotCreated pool a t i rest out .cold v w attached ∧ (attached.tls t i).numElementsL1 = 0 := by
  intro localStack attached
  rcases attachSlot_attaches (w := { w with heap := localStack.2 }) (t := t)
    sound.inv.represents bound localStack.1 low slots with
    ⟨self, attaches, capacity, storageL0, machine⟩
  change attached.toMachine = _ at machine
  have slot : attached.tls t i = self := by rw [machine, Machine.setTls_same]
  have stack : self.stackRegion = ⟨w.heap.answer (stackElements v * 4) cacheLineSize,
      stackElements v * 4⟩ := by
    rw [TlsPoolBucket.stackRegion, attaches.pStorageL1, capacity]
    rfl
  refine ⟨⟨?_, ?_, ?_, ?_, ?_, ?_, ?_, ?_, ?_, ?_⟩, ?_⟩
  · rw [machine]
    exact sound.attach bound idle served attaches stack
  · rw [machine]
    exact Confined.of_mem_eq (fun _ _ => rfl)
      (fun _ other => Machine.setTls_threads self other) rfl
  · intro j other
    rw [machine]
    exact Machine.setTls_of_ne _ _ _ _ (fun same => other same.2)
  · refine ⟨?_, ?_, ?_, ?_⟩ <;> rw [slot]
    · exact attaches.serving
    · exact capacity
    · exact attaches.numElementsL0
    · intro central _
      rw [attaches.numElementsL1]
      exact (Nat.zero_min _).symm
  · intro k _
    rw [slot, storageL0]
  · rw [slot, stack, machine]
    exact GenericAllocator.alloc_live served
  · exact World.check_faults _ _ _
  · intro large _
    have capacityFine : decide (stackElements v ≥ maxCacheItemsCount + 2) = true := by
      rw [decide_eq_true_iff, stackElements, Nat.mod_eq_of_lt slots]
      omega
    have same : attached.failed = ({ w with heap := localStack.2 }.check .tlsInitCapacity
      (decide (stackElements v ≥ maxCacheItemsCount + 2))).failed := rfl
    rw [same, World.check_true _ capacityFine]
  · intro more
    change TlsPoolBucket.warmupDrain t i (0 + more) 0 attached = _
    exact warmupDrain_zero _ attached
  · intro _
    refine ⟨World.check_tally (w := { w with heap := localStack.2 }) _ _, fun j _ => ?_⟩
    rw [machine]
    rfl
  · rw [slot]
    exact attaches.numElementsL1

/-- A cache bucket with its stack, warmed up. -/
theorem warmUp (sound : Sound pool a rest w.toMachine out) (bound : i < pool.bucketsCount)
    (serving : (w.tls t i).Serving a i) (empty : (w.tls t i).getElementsCount = 0)
    (closed : forall j, i < j -> (w.tls t j).maxElementsCount = 0) {num : Nat}
    (fits : num ≤ (w.tls t i).maxElementsCount) :
    let filled := TlsPoolBucket.warmupFill scheme a t i num 0 w
    let warmed := TlsPoolBucket.warmupDrain t i num filled.1 filled.2
    Draining pool a t i rest out w warmed 0 [] ∧ (warmed.tls t i).numElementsL1 ≤ num ∧
      ((warmed.tls t i).numElementsL1 = num ∨
        (warmed.bucket a i).head = TaggedIndex.invalid) ∧
      (forall more, TlsPoolBucket.warmupDrain t i (num + more) filled.1 filled.2 = warmed) ∧
      (Unspilled pool a i out num w.toMachine -> Quiet a i w warmed) := by
  intro filled warmed
  have start : Filling pool a t i rest out w w 0 [] :=
    ⟨⟨sound, ⟨rfl, fun _ impossible => absurd impossible List.not_mem_nil⟩,
      Confined.refl pool a t out _, rfl, rfl⟩, rfl, rfl⟩
  rcases warmupFill_spec sound bound empty closed num 0 w [] start with
    ⟨hand, filling, short, full, quiet⟩
  rw [List.length_nil, Nat.zero_add] at short full quiet
  change Filling pool a t i rest out w filled.2 filled.1 hand at filling
  have noL1 : (w.tls t i).numElementsL1 = 0 := by
    unfold TlsPoolBucket.getElementsCount at empty
    omega
  have drained := warmupDrain_spec bound num filled.1 filled.2 hand short
    (filling.draining serving) (by rw [filling.tls]; omega)
  rcases drained with ⟨draining, level1, allocs, ends⟩
  rw [filling.tls, noL1, Nat.zero_add] at level1
  have heads : forall j, (warmed.bucket a j).head = (filled.2.bucket a j).head := by
    intro j
    change ((warmed.allocs a).buckets j).head = _
    rw [allocs]
    rfl
  refine ⟨draining, level1 ▸ short, full.imp (fun equal => level1.trans equal) ?_, ends, ?_⟩
  · exact (heads i).trans
  · intro unspilled
    exact (quiet (Quiet.refl a i w) unspilled).trans
      ⟨warmupDrain_tally num _ _, fun j _ => heads j⟩

/-- A cache bucket with its stack, warmed up: it has just the blocks that the
central list has lost. -/
theorem warmSlot (sound : Sound pool a rest w.toMachine out) (bound : i < pool.bucketsCount)
    (idles : forall j, i ≤ j -> (w.tls t j).Idle) (low : v ≠ 1) (slots : v + maxCacheItemsCount < 2 ^ 32)
    (served : w.heap.answer (stackElements v * 4) cacheLineSize ≠ 0)
    (warmupOptions : CacheWarmupOptions) :
    let localStack := w.heap.alloc (stackElements v * 4) cacheLineSize
    let attached := { w with heap := localStack.2 }.attachSlot t i localStack.1
      (stackElements v) a
    let filled := TlsPoolBucket.warmupFill scheme a t i (warmupOptions.amount v) 0 attached
    SlotCreated pool a t i rest out warmupOptions v w
      (TlsPoolBucket.warmupDrain t i (warmupOptions.amount v) filled.1 filled.2) := by
  intro localStack start filled
  have idle := idles i (Nat.le_refl i)
  rcases sound.attachSlot bound idle low slots served with ⟨attached, noL1⟩
  change SlotCreated pool a t i rest out .cold v w start at attached
  change (start.tls t i).numElementsL1 = 0 at noL1
  have noL0 := attached.warmed.level0
  have capacity := attached.warmed.capacity
  have serving := attached.warmed.serving
  have closed : forall j, i < j -> (start.tls t j).maxElementsCount = 0 := by
    intro j above
    rw [attached.others j (by omega)]
    exact (idles j (by omega)).maxElementsCount
  have empty : (start.tls t i).getElementsCount = 0 := by
    unfold TlsPoolBucket.getElementsCount
    omega
  rcases attached.sound.warmUp bound serving empty closed
    (Nat.le_trans (warmupOptions.amount_le v) (Nat.le_of_eq capacity.symm)) with
    ⟨draining, short, full, ends, warmedQuiet⟩
  change Draining pool a t i rest out start
    (TlsPoolBucket.warmupDrain t i (warmupOptions.amount v) filled.1 filled.2) 0 [] at draining
  have ended : w.WarmupEnds scheme a t i v warmupOptions := ends
  generalize TlsPoolBucket.warmupDrain t i (warmupOptions.amount v) filled.1 filled.2 = warmed
    at draining short full warmedQuiet ⊢
  have level0 : (warmed.tls t i).numElementsL0 = 0 := draining.level0.trans noL0
  have confined := attached.confined.trans draining.confined
  refine ⟨draining.sound, confined, ?_, ⟨draining.serving, ?_, level0, ?_⟩, ?_, ?_, ?_, ?_, ended,
    ?_⟩
  · exact fun j other => (draining.others j other).trans (attached.others j other)
  · exact draining.kept.maxElementsCount.trans capacity
  · intro central bucket
    rcases draining.sound.inv.buckets i bound with ⟨central', bucket'⟩
    have lost := bucket.lost bucket' confined.threads idle draining.serving.pBucket
    rw [TlsPoolBucket.getElementsCount, level0, Nat.add_zero] at lost
    rcases full with equal | head
    · omega
    · have drained : central' = [] := bucket'.linked.eq_nil_iff.mpr head
      rw [drained, List.length_nil] at lost
      omega
  · exact fun k past => (draining.kept.beyond k past).trans (attached.beyond k past)
  · rw [draining.kept.sameStack.region]
    exact draining.live.trans attached.live
  · exact draining.faults.trans attached.faults
  · intro large _
    exact draining.failed.trans (attached.failed large (fun _ _ => Nat.zero_le _))
  · intro unspilled
    have quiet := attached.quiet (fun _ _ => Or.inl (Nat.zero_le _))
    refine quiet.trans (warmedQuiet (unspilled.congr (fun j above => quiet.heads j (by omega)) ?_))
    intro central' bucket'
    rcases sound.inv.buckets i bound with ⟨central, bucket⟩
    have lost := bucket.lost bucket' attached.confined.threads idle serving.pBucket
    rw [empty, Nat.add_zero] at lost
    exact ⟨central, bucket, lost.symm⟩

/-- The assertion at the end of `Init` counts the blocks of the cache bucket. -/
theorem checkSlot {warmupOptions : CacheWarmupOptions} (sound : Sound pool a rest w.toMachine out)
    (bound : i < pool.bucketsCount) (created : SlotCreated pool a t i rest out warmupOptions v w w') :
    SlotCreated pool a t i rest out warmupOptions v w
      (w'.check .tlsInitCount
        (decide ((w'.tls t i).getElementsCount = warmupOptions.amount v))) := by
  obtain ⟨last, isLast⟩ : ∃ last, last = w'.check .tlsInitCount
      (decide ((w'.tls t i).getElementsCount = warmupOptions.amount v)) := ⟨_, rfl⟩
  have machine : last.toMachine = w'.toMachine := by rw [isLast, World.check_toMachine]
  have faults : last.faults = w'.faults := by rw [isLast, World.check_faults]
  have tally : last.tally a = w'.tally a := by rw [isLast, World.check_tally]
  rw [← isLast]
  rcases created with
    ⟨after, confined, others, warmed, beyond, live, noFaults, failed, ends, quiet⟩
  have level0 := warmed.level0
  have level1 := warmed.level1
  rw [← machine] at after confined others warmed beyond live
  refine ⟨after, confined, others, warmed, beyond, live, ?_, ?_, ends, ?_⟩
  · exact faults.trans noFaults
  · intro large affordable
    rcases sound.inv.buckets i bound with ⟨central, bucket⟩
    have enough := affordable central bucket
    have counted := level1 central bucket
    rw [isLast, World.check_true]
    · exact failed large affordable
    · rw [decide_eq_true_iff, TlsPoolBucket.getElementsCount, level0, counted]
      omega
  · intro unspilled
    have later := quiet unspilled
    exact ⟨tally.trans later.tally, fun j other => by rw [machine]; exact later.heads j other⟩

/-- One round of `CreateThreadCache`. -/
theorem createSlot (sound : Sound pool a rest w.toMachine out) (bound : i < pool.bucketsCount)
    (idles : forall j, i ≤ j -> (w.tls t j).Idle) (low : v ≠ 1) (slots : v + maxCacheItemsCount < 2 ^ 32)
    (served : w.heap.answer (stackElements v * 4) cacheLineSize ≠ 0)
    (warmupOptions : CacheWarmupOptions) :
    SlotCreated pool a t i rest out warmupOptions v w
      (w.createSlot scheme a t i v warmupOptions) := by
  have idle := idles i (Nat.le_refl i)
  rw [World.createSlot, init_eq (w := { w with
    heap := (w.heap.alloc (stackElements v * 4) cacheLineSize).2 }) warmupOptions idle
      (sound.inv.represents.bucketsCount ▸ bound), stackElements_capacity slots]
  by_cases cold : warmupOptions = .cold
  · rw [if_pos cold, cold]
    exact (sound.attachSlot bound idle low slots served).1
  · rw [if_neg cold]
    exact sound.checkSlot bound (sound.warmSlot bound idles low slots served warmupOptions)

end Sound

/-! ## The loop over the options -/

theorem Warmed.congr {middle last : Machine} {warmupOptions : CacheWarmupOptions}
    (warmed : Warmed pool a t i out warmupOptions v m middle)
    (same : last.tls t i = middle.tls t i) : Warmed pool a t i out warmupOptions v m last := by
  rcases warmed with ⟨serving, capacity, level0, level1⟩
  exact ⟨same ▸ serving, same ▸ capacity, same ▸ level0, same ▸ level1⟩

/-- Two states in which thread `t` has nothing cached of bucket `i` have central
lists of the same length. -/
theorem Sound.central_length (after : Sound pool a rest m' out)
    (threads : forall u, u ≠ t -> m'.tls u = m.tls u) (idle : (m.tls t i).Idle)
    (idle' : (m'.tls t i).Idle) (bound : i < pool.bucketsCount) {central : List Nat}
    (bucket : BucketInv pool m a i central (pool.offsets out i)) :
    ∃ central', BucketInv pool m' a i central' (pool.offsets out i) ∧
      central'.Perm central := by
  rcases after.inv.buckets i bound with ⟨central', bucket'⟩
  have perm := bucket.share bucket' threads
  rw [cached_of_idle idle, cached_of_idle idle', List.append_nil, List.append_nil] at perm
  exact ⟨central', bucket', perm⟩

/-- The stacks of cache buckets `i`, `i + 1`, ... of thread `t`, the last first. -/
def Machine.stacksOf (m : Machine) (t i count : Nat) : List Region :=
  (List.range' i count).reverse.map (fun j => (m.tls t j).stackRegion)

theorem Machine.stacksOf_succ (m : Machine) (t i count : Nat) :
    m.stacksOf t i (count + 1) = m.stacksOf t (i + 1) count ++ [(m.tls t i).stackRegion] := by
  rw [stacksOf, List.range'_succ, List.reverse_cons, List.map_append]
  rfl

/-- `CreateThreadCache` has worked through `options`, from bucket `i` on. -/
structure CacheCreated (pool : Pool scheme) (a t i : Nat) (rest out : List Nat)
    (warmupOptions : CacheWarmupOptions) (options : List Nat) (w w' : World) : Prop where
  sound : Sound pool a rest w'.toMachine out
  confined : Confined pool a t out w.toMachine w'.toMachine
  others : forall j, j < i ∨ i + options.length ≤ j -> w'.tls t j = w.tls t j
  slots : forall k v, options[k]? = some v ->
    Warmed pool a t (i + k) out warmupOptions v w.toMachine w'.toMachine
  beyond : forall j k, maxCacheItemsCount ≤ k ->
    (w'.tls t j).storageL0 k = (w.tls t j).storageL0 k
  live : w'.heap.live = w'.stacksOf t i options.length ++ w.heap.live
  faults : w'.faults = w.faults
  failed : (forall v, v ∈ options -> 2 ≤ v) ->
    (forall k v, options[k]? = some v ->
      Affordable pool a (i + k) out warmupOptions v w.toMachine) -> w'.failed = w.failed
  ends : forall k v, options[k]? = some v ->
    (Allocator.createThreadCacheFrom scheme a t warmupOptions i (options.take k) w).WarmupEnds scheme
      a t (i + k) v warmupOptions
  tally : (forall k v, options[k]? = some v ->
    Unspilled pool a (i + k) out (warmupOptions.amount v) w.toMachine) -> w'.tally a = w.tally a

theorem CacheCreated.nothing {warmupOptions : CacheWarmupOptions}
    (sound : Sound pool a rest w.toMachine out) :
    CacheCreated pool a t i rest out warmupOptions [] w w where
  sound := sound
  confined := Confined.refl pool a t out _
  others := fun _ _ => rfl
  slots := by
    intro k v found
    cases found
  beyond := fun _ _ _ => rfl
  live := rfl
  faults := rfl
  failed := fun _ _ => rfl
  ends := by
    intro k v found
    cases found
  tally := fun _ => rfl

/-- The central list of another bucket is as long as it was. -/
theorem SlotCreated.later_list {created : World} {warmupOptions : CacheWarmupOptions} {j : Nat}
    {central : List Nat} (here : SlotCreated pool a t i rest out warmupOptions v w created)
    (idle : (w.tls t j).Idle) (other : j ≠ i) (bound : j < pool.bucketsCount)
    (bucket : BucketInv pool w.toMachine a j central (pool.offsets out j)) :
    ∃ central', BucketInv pool created.toMachine a j central' (pool.offsets out j) ∧
      central'.Perm central :=
  here.sound.central_length here.confined.threads idle (by rw [here.others j other]; exact idle)
    bound bucket

theorem SlotCreated.earlier_list {created : World} {warmupOptions : CacheWarmupOptions} {j : Nat}
    {central' : List Nat} (here : SlotCreated pool a t i rest out warmupOptions v w created)
    (sound : Sound pool a rest w.toMachine out) (idle : (w.tls t j).Idle) (other : j ≠ i)
    (bound : j < pool.bucketsCount)
    (bucket' : BucketInv pool created.toMachine a j central' (pool.offsets out j)) :
    ∃ central, BucketInv pool w.toMachine a j central (pool.offsets out j) ∧
      central.length = central'.length := by
  rcases sound.inv.buckets j bound with ⟨central, bucket⟩
  rcases here.later_list idle other bound bucket with ⟨central'', bucket'', perm⟩
  have same : central'' = central' := bucket'.linked.unique bucket''.linked
  exact ⟨central, bucket, perm.length_eq.symm.trans (congrArg List.length same)⟩

/-- One round, and the rest of the loop. -/
theorem CacheCreated.cons {created : World} {warmupOptions : CacheWarmupOptions}
    {options : List Nat} (sound : Sound pool a rest w.toMachine out)
    (idles : forall j, i ≤ j -> (w.tls t j).Idle)
    (fits : i + 1 + options.length ≤ pool.bucketsCount)
    (opened : forall options, Allocator.createThreadCacheFrom scheme a t warmupOptions i
      (v :: options) w =
        Allocator.createThreadCacheFrom scheme a t warmupOptions (i + 1) options created)
    (here : SlotCreated pool a t i rest out warmupOptions v w created)
    (later : CacheCreated pool a t (i + 1) rest out warmupOptions options created w') :
    CacheCreated pool a t i rest out warmupOptions (v :: options) w w' := by
  have shifted : forall k, i + 1 + k = i + (k + 1) := by omega
  refine ⟨later.sound, here.confined.trans later.confined, ?_, ?_, ?_, ?_, ?_, ?_, ?_, ?_⟩
  · intro j outside
    rw [List.length_cons] at outside
    rw [later.others j (by omega), here.others j (by omega)]
  · intro k u found
    cases k with
    | zero =>
        cases found
        exact here.warmed.congr (later.others i (by omega))
    | succ k =>
        rw [List.getElem?_cons_succ] at found
        have length := (List.getElem?_eq_some_iff.mp found).1
        have warmed := later.slots k u found
        rw [shifted] at warmed
        refine ⟨warmed.serving, warmed.capacity, warmed.level0, ?_⟩
        intro central bucket
        rcases here.later_list (idles _ (by omega)) (by omega) (by omega) bucket with
          ⟨central', bucket', perm⟩
        rw [← perm.length_eq]
        exact warmed.level1 central' bucket'
  · intro j k past
    rw [later.beyond j k past]
    by_cases first : j = i
    · subst first
      exact here.beyond k past
    · rw [here.others j first]
  · rw [later.live, here.live, List.length_cons, Machine.stacksOf_succ, List.append_assoc,
      later.others i (by omega)]
    rfl
  · exact later.faults.trans here.faults
  · intro large affordable
    rw [later.failed (fun v member => large v (List.mem_cons_of_mem _ member)) ?_]
    · exact here.failed (large v List.mem_cons_self) (affordable 0 v rfl)
    · intro k u found
      have length := (List.getElem?_eq_some_iff.mp found).1
      rw [shifted]
      intro central' bucket'
      rcases here.earlier_list sound (idles _ (by omega)) (by omega) (by omega) bucket' with
        ⟨central, bucket, same⟩
      rw [← same]
      exact affordable (k + 1) u found central bucket
  · intro k u found
    cases k with
    | zero =>
        cases found
        exact here.ends
    | succ k =>
        rw [List.getElem?_cons_succ] at found
        rw [List.take_succ_cons, opened, ← shifted k]
        exact later.ends k u found
  · intro unspilled
    have quiet := here.quiet (unspilled 0 v rfl)
    refine (later.tally (fun k u found => ?_)).trans quiet.tally
    have length := (List.getElem?_eq_some_iff.mp found).1
    rw [shifted]
    apply (unspilled (k + 1) u found).congr (fun j above => quiet.heads j (by omega))
    intro central' bucket'
    exact here.earlier_list sound (idles _ (by omega)) (by omega) (by omega) bucket'

namespace Sound

/-- The loop of `CreateThreadCache`.  It stops after the last bucket. -/
theorem createFrom (warmupOptions : CacheWarmupOptions) : forall (options : List Nat) (i : Nat)
    (w : World), Sound pool a rest w.toMachine out ->
    (forall j, i ≤ j -> (w.tls t j).Idle) ->
    (forall v, v ∈ options -> v ≠ 1 ∧ v + maxCacheItemsCount < 2 ^ 32) ->
    w.stacksServed scheme a t warmupOptions i options = true ->
    CacheCreated pool a t i rest out warmupOptions (options.take (pool.bucketsCount - i)) w
      (Allocator.createThreadCacheFrom scheme a t warmupOptions i options w) := by
  intro options
  induction options with
  | nil =>
      intro i w sound _ _ _
      rw [List.take_nil]
      exact CacheCreated.nothing sound
  | cons v options ih =>
      intro i w sound idles entries served
      have count := sound.inv.represents.bucketsCount
      by_cases past : pool.bucketsCount ≤ i
      · rw [Allocator.createThreadCacheFrom, count, if_pos past, Nat.sub_eq_zero_of_le past,
          List.take_zero]
        exact CacheCreated.nothing sound
      have inside : ¬ (w.allocs a).bucketsCount ≤ i := count.symm ▸ past
      have opened : forall options, Allocator.createThreadCacheFrom scheme a t warmupOptions i
          (v :: options) w = Allocator.createThreadCacheFrom scheme a t warmupOptions (i + 1) options
            (w.createSlot scheme a t i v warmupOptions) := by
        intro options
        rw [Allocator.createThreadCacheFrom, if_neg inside]
        rfl
      have amount : pool.bucketsCount - i = pool.bucketsCount - (i + 1) + 1 := by omega
      rw [World.stacksServed, decide_eq_false inside, Bool.false_or, Bool.and_eq_true,
        decide_eq_true_iff] at served
      have entry := entries v List.mem_cons_self
      have here := sound.createSlot (Nat.lt_of_not_le past) idles entry.1 entry.2 served.1
        warmupOptions
      generalize w.createSlot scheme a t i v warmupOptions = created at here opened served
      have later := ih (i + 1) created here.sound
        (fun j above => by rw [here.others j (by omega)]; exact idles j (by omega))
        (fun v member => entries v (List.mem_cons_of_mem _ member)) served.2
      rw [opened, amount, List.take_succ_cons]
      have short := List.length_take_le (pool.bucketsCount - (i + 1)) options
      exact CacheCreated.cons sound idles (by omega) opened here later

/-- `CreateThreadCache` for a thread without a cache. -/
theorem createThreadCache (sound : Sound pool a rest w.toMachine out)
    (warmupOptions : CacheWarmupOptions) {options : List Nat}
    (idles : forall j, (w.tls t j).Idle)
    (entries : forall v, v ∈ options -> v ≠ 1 ∧ v + maxCacheItemsCount < 2 ^ 32)
    (served : (w.check .createThreadCacheOptions
      (options.length ≤ (w.allocs a).bucketsCount)).stacksServed scheme a t warmupOptions 0
        options = true) :
    CacheCreated pool a t 0 rest out warmupOptions (options.take pool.bucketsCount)
      (w.check .createThreadCacheOptions (options.length ≤ (w.allocs a).bucketsCount))
      (Allocator.createThreadCache scheme w a t warmupOptions options) := by
  have checked := World.check_toMachine w .createThreadCacheOptions
    (options.length ≤ (w.allocs a).bucketsCount)
  exact createFrom warmupOptions options 0 _ (checked.symm ▸ sound)
    (fun j _ => checked.symm ▸ idles j) entries served

/-- `CreateThreadCache` with an option for at most every bucket. -/
theorem createThreadCache_fits (sound : Sound pool a rest w.toMachine out)
    (warmupOptions : CacheWarmupOptions) {options : List Nat}
    (idles : forall j, (w.tls t j).Idle)
    (entries : forall v, v ∈ options -> v ≠ 1 ∧ v + maxCacheItemsCount < 2 ^ 32)
    (length : options.length ≤ pool.bucketsCount)
    (served : w.stacksServed scheme a t warmupOptions 0 options = true) :
    CacheCreated pool a t 0 rest out warmupOptions options w
      (Allocator.createThreadCache scheme w a t warmupOptions options) := by
  have checked : decide (options.length ≤ (w.allocs a).bucketsCount) = true := by
    rw [sound.inv.represents.bucketsCount]
    exact decide_eq_true length
  have same : w.check .createThreadCacheOptions
      (decide (options.length ≤ (w.allocs a).bucketsCount)) = w := World.check_true w checked
  have created := sound.createThreadCache warmupOptions idles entries (by rw [same]; exact served)
  rw [same, List.take_of_length_le length] at created
  exact created

end Sound

end SmMalloc
