import SmMalloc.Pool.Attach

namespace SmMalloc

open Foundation

/-!
# What refused requests leave behind

Nothing asks whether the fallback heap has served the allocator object, the
buffer or the stack of a cache bucket.  What the allocator follows later is the
address of the first byte of a bucket, and in a cache bucket the stack, the
bucket and its first byte.  None of these addresses changes after the set-up,
whatever state the lists are in, so the lemmas here need no invariant of the
pool.
-/

variable {scheme : Partitioning} {m : Machine} {w w' : World}
variable {a i t p : Nat} {bytesCount alignment : Nat}

/-! ## Cache buckets in use -/

namespace TlsPoolBucket

/-- A cache bucket that is closed and empty, or has everything that is followed in it. -/
def Fitted (self : TlsPoolBucket) : Prop :=
  (self.maxElementsCount = 0 ∧ self.getElementsCount = 0) ∨
    (self.pStorageL1 ≠ 0 ∧ self.pBucketData ≠ 0 ∧ self.pBucket.isSome = true)

/-- What use does to a cache bucket: it gets blocks only if it is open. -/
structure Used (old new : TlsPoolBucket) : Prop where
  pBucket : new.pBucket = old.pBucket
  pBucketData : new.pBucketData = old.pBucketData
  pStorageL1 : new.pStorageL1 = old.pStorageL1
  maxElementsCount : new.maxElementsCount = old.maxElementsCount
  closed : old.maxElementsCount = 0 -> new.getElementsCount ≤ old.getElementsCount

theorem Used.refl (self : TlsPoolBucket) : self.Used self :=
  ⟨rfl, rfl, rfl, rfl, fun _ => Nat.le_refl _⟩

theorem Used.trans {first second third : TlsPoolBucket} (before : first.Used second)
    (after : second.Used third) : first.Used third where
  pBucket := after.pBucket.trans before.pBucket
  pBucketData := after.pBucketData.trans before.pBucketData
  pStorageL1 := after.pStorageL1.trans before.pStorageL1
  maxElementsCount := after.maxElementsCount.trans before.maxElementsCount
  closed := fun zero => Nat.le_trans (after.closed (before.maxElementsCount.trans zero))
    (before.closed zero)

theorem Popped.used {old new : TlsPoolBucket} (popped : old.Popped new) : old.Used new := by
  rcases popped with ⟨l0, l1, le0, le1, rfl⟩
  exact ⟨rfl, rfl, rfl, rfl, fun _ => Nat.add_le_add le1 le0⟩

theorem Fitted.used {old new : TlsPoolBucket} (fitted : old.Fitted) (used : old.Used new) :
    new.Fitted := by
  rcases fitted with ⟨closed, empty⟩ | ⟨stored, data, owned⟩
  · left
    exact ⟨used.maxElementsCount.trans closed, Nat.le_zero.mp (empty ▸ used.closed closed)⟩
  · right
    rw [used.pStorageL1, used.pBucketData, used.pBucket]
    exact ⟨stored, data, owned⟩

/-- An open cache bucket has its stack and its bucket. -/
theorem Fitted.opened {self : TlsPoolBucket} (fitted : self.Fitted)
    (opens : self.maxElementsCount ≠ 0 ∨ self.getElementsCount ≠ 0) :
    self.pStorageL1 ≠ 0 ∧ self.pBucketData ≠ 0 ∧ self.pBucket.isSome = true := by
  apply fitted.resolve_left
  rintro ⟨closed, empty⟩
  rcases opens with opens | opens
  · exact opens closed
  · exact opens empty

end TlsPoolBucket

/-- Some store has gone through a null pointer. -/
def World.Harmed (w : World) : Prop := Fault.storeThroughNull ∈ w.faults

/-- What requests do: cache buckets are used, the layout of the allocator
objects stays, and there is no store through a null pointer as long as the
cache buckets are fitted. -/
structure World.Uses (w w' : World) : Prop where
  tls : forall u j, (w.tls u j).Used (w'.tls u j)
  layout : w'.layout = w.layout
  stores : (forall u j, (w.tls u j).Fitted) -> w'.Harmed -> w.Harmed

namespace World

theorem Uses.of_eq (tls : w'.tls = w.tls) (layout : w'.layout = w.layout)
    (faults : w'.faults = w.faults) : w.Uses w' where
  tls := fun u j => by rw [tls]; exact TlsPoolBucket.Used.refl _
  layout := layout
  stores := fun _ harmed => by
    rw [Harmed, faults] at harmed
    exact harmed

theorem Uses.refl (w : World) : w.Uses w := Uses.of_eq rfl rfl rfl

theorem Uses.trans {first middle last : World} (before : first.Uses middle)
    (after : middle.Uses last) : first.Uses last where
  tls := fun u j => (before.tls u j).trans (after.tls u j)
  layout := after.layout.trans before.layout
  stores := fun fitted harmed =>
    before.stores fitted (after.stores (fun u j => (fitted u j).used (before.tls u j)) harmed)

theorem check_uses (w : World) (site : Assertion) (holds : Bool) : w.Uses (w.check site holds) :=
  Uses.of_eq (by rw [check_toMachine]) (by rw [check_toMachine]) (check_faults _ _ _)

theorem setTls_used {self : TlsPoolBucket} (used : (w.tls t i).Used self) (u j : Nat) :
    (w.tls u j).Used ((w.setTls t i self).tls u j) := by
  rw [setTls_toMachine]
  by_cases here : u = t ∧ j = i
  · rw [here.1, here.2, Machine.setTls_same]
    exact used
  · rw [Machine.setTls_of_ne _ _ _ _ here]
    exact TlsPoolBucket.Used.refl _

/-- A push onto the stack of an open cache bucket. -/
theorem pushL1_uses (opens : (w.tls t i).maxElementsCount ≠ 0) (offset : UInt32) :
    w.Uses (w.pushL1 t i offset) := by
  have pushed : forall storageL1 : Nat -> UInt32, (w.tls t i).Used { w.tls t i with
      storageL1 := storageL1, numElementsL1 := (w.tls t i).numElementsL1 + 1 } :=
    fun _ => ⟨rfl, rfl, rfl, rfl, fun closed => absurd closed opens⟩
  refine ⟨fun u j => ?_, pushL1_layout w t i offset, fun fitted harmed => ?_⟩
  · unfold pushL1
    simp only
    split
    · exact setTls_used (pushed _) u j
    · split
      · exact setTls_used (pushed _) u j
      · exact setTls_used (pushed _) u j
  · have stored := ((fitted t i).opened (Or.inl opens)).1
    unfold pushL1 at harmed
    simp only [if_neg stored] at harmed
    split at harmed
    · exact harmed
    · exact (List.mem_cons.mp harmed).resolve_left (by decide)

theorem returnL1CacheToMaster_uses (w : World) (t i count : Nat) :
    w.Uses (TlsPoolBucket.returnL1CacheToMaster w t i count) := by
  refine ⟨fun u j => ?_, returnL1CacheToMaster_layout w t i count, fun fitted harmed => ?_⟩
  · by_cases here : u = t ∧ j = i
    · rcases here with ⟨rfl, rfl⟩
      unfold TlsPoolBucket.returnL1CacheToMaster
      simp only
      split
      · exact TlsPoolBucket.Used.refl _
      split
      · rw [check_toMachine]
        exact TlsPoolBucket.Used.refl _
      split
      · rw [fault_toMachine, check_toMachine]
        exact TlsPoolBucket.Used.refl _
      · simp only [Machine.setTls_same]
        exact ⟨rfl, rfl, rfl, rfl, fun _ => Nat.add_le_add (Nat.sub_le _ _) (Nat.le_refl _)⟩
    · rw [returnL1CacheToMaster_tls here]
      exact TlsPoolBucket.Used.refl _
  · unfold TlsPoolBucket.returnL1CacheToMaster at harmed
    simp only at harmed
    split at harmed
    · exact harmed
    split at harmed
    · rw [Harmed, check_faults] at harmed
      exact harmed
    next nonempty =>
      have filled : (w.tls t i).getElementsCount ≠ 0 := by
        unfold TlsPoolBucket.getElementsCount
        omega
      have owned := ((fitted t i).opened (Or.inr filled)).2.2
      split at harmed
      next none => rw [none] at owned; cases owned
      next =>
        change Fault.storeThroughNull ∈ (w.check _ _).faults at harmed
        rw [check_faults] at harmed
        exact harmed

theorem releaseToCache_uses (useCacheL0 : Bool) (w : World) (t i p : Nat) :
    w.Uses (Allocator.releaseToCache useCacheL0 w t i p).2 := by
  by_cases closed : (w.tls t i).maxElementsCount = 0
  · have refused : Allocator.releaseToCache useCacheL0 w t i p = (false, w) := if_pos closed
    rw [refused]
    exact Uses.refl w
  have checked : forall holds holds' holds'' : Bool,
      w.Uses (((w.check .releaseToCacheBucket holds).check .releaseToCacheBucketData
        holds').check .releaseToCacheRange holds'') := by
    intro holds holds' holds''
    exact ((check_uses w _ _).trans (check_uses _ _ _)).trans (check_uses _ _ _)
  have opens : forall {w' : World}, w.Uses w' -> (w'.tls t i).maxElementsCount ≠ 0 :=
    fun uses zero => closed ((uses.tls t i).maxElementsCount.symm.trans zero)
  have pushed : forall {w' : World}, w.Uses w' -> forall offset, w.Uses (w'.pushL1 t i offset) :=
    fun uses offset => uses.trans (pushL1_uses (opens uses) offset)
  unfold Allocator.releaseToCache
  simp only [if_neg closed]
  split
  · refine (checked _ _ _).trans ⟨fun u j => ?_, rfl, fun _ harmed => harmed⟩
    apply setTls_used
    rw [check_toMachine, check_toMachine, check_toMachine]
    exact ⟨rfl, rfl, rfl, rfl, fun zero => absurd zero closed⟩
  split
  · exact pushed (checked _ _ _) _
  · exact pushed ((checked _ _ _).trans (returnL1CacheToMaster_uses _ t i _)) _

/-! ## Requests and the warm-up -/

theorem allocate_uses (scheme : Partitioning) (enableStatistic : Bool) (w : World)
    (a t bytesCount alignment : Nat) :
    w.Uses (Allocator.allocate scheme enableStatistic w a t bytesCount alignment).2 where
  tls := fun u j => (allocate_popped enableStatistic w u j).used
  layout := allocate_layout enableStatistic w
  stores := fun _ harmed => by
    rw [Harmed, allocate_faults] at harmed
    exact harmed

/-- `Free` of any pointer. -/
theorem free_uses (w : World) (a t p : Nat) : w.Uses (Allocator.free w a t p) := by
  unfold Allocator.free
  simp only
  split
  · exact Uses.refl w
  split
  · have counted : w.Uses (w.countBucket true a ((w.allocs a).findBucket p) (fun stats =>
        { stats with freeCount := stats.freeCount + 1 })) :=
      Uses.of_eq (by rw [countBucket_toMachine]) (by rw [countBucket_toMachine])
        (countBucket_faults _ _ _ _ _)
    have released := counted.trans (releaseToCache_uses true _ t ((w.allocs a).findBucket p) p)
    split
    · exact released
    · exact released.trans (Uses.of_eq rfl (Machine.freeInterval_layout _ _ _ _ _) rfl)
  · exact Uses.of_eq rfl rfl rfl

theorem warmupFill_uses (scheme : Partitioning) (a t i : Nat) : forall (remaining pRoot : Nat)
    (w : World), w.Uses (TlsPoolBucket.warmupFill scheme a t i remaining pRoot w).2 := by
  intro remaining
  induction remaining with
  | zero => exact fun _ w => Uses.refl w
  | succ remaining ih =>
      intro pRoot w
      have allocated := allocate_uses scheme false w a t
        (scheme.getBucketSizeInBytesByIndex i) kDefaultTlsCacheAlignment
      unfold TlsPoolBucket.warmupFill
      simp only
      split
      · exact allocated
      split
      · exact allocated.trans (free_uses _ a t _)
      · refine allocated.trans (Uses.trans ?_ (ih _ _))
        exact Uses.of_eq rfl rfl rfl

theorem warmupDrain_uses (t i : Nat) : forall (rounds pCurrent : Nat) (w : World),
    w.Uses (TlsPoolBucket.warmupDrain t i rounds pCurrent w) := by
  intro rounds
  induction rounds with
  | zero => exact fun _ w => Uses.refl w
  | succ rounds ih =>
      intro pCurrent w
      unfold TlsPoolBucket.warmupDrain
      split
      · exact Uses.refl w
      · exact ((releaseToCache_uses false w t i pCurrent).trans (check_uses _ _ _)).trans (ih _ _)

end World

/-! ## Creating a thread cache -/

/-- `Init` attaches the cache bucket to the stack that it is given, served or not, and uses it. -/
theorem init_uses (scheme : Partitioning) (w : World) (t pCacheStack maxElementsNum : Nat)
    (warmupOptions : CacheWarmupOptions) (a i : Nat) :
    ∃ (attached : World) (self : TlsPoolBucket),
      attached.Uses (TlsPoolBucket.init scheme w t pCacheStack maxElementsNum warmupOptions a i) ∧
      attached.toMachine = w.toMachine.setTls t i self ∧ attached.faults = w.faults ∧
      self.pStorageL1 = pCacheStack ∧
      self.maxElementsCount = (maxElementsNum + 2 ^ 32 - maxCacheItemsCount) % 2 ^ 32 ∧
      self.getElementsCount = 0 ∧ self.pBucketData = (w.bucket a i).pData ∧
      self.pBucket = if i < (w.allocs a).bucketsCount then some (a, i) else none := by
  obtain ⟨self, isSelf⟩ : ∃ self : TlsPoolBucket, self = { w.tls t i with
      pStorageL1 := pCacheStack
      numElementsL1 := 0
      numElementsL0 := 0
      maxElementsCount := (maxElementsNum + 2 ^ 32 - maxCacheItemsCount) % 2 ^ 32
      pBucket := if i < (w.allocs a).bucketsCount then some (a, i) else none
      pBucketData := (w.bucket a i).pData } := ⟨_, rfl⟩
  have attached : forall checked : World, checked.toMachine = w.toMachine ->
      checked.faults = w.faults -> (checked.setTls t i self).toMachine = w.toMachine.setTls t i self ∧
        (checked.setTls t i self).faults = w.faults ∧ self.pStorageL1 = pCacheStack ∧
        self.maxElementsCount = (maxElementsNum + 2 ^ 32 - maxCacheItemsCount) % 2 ^ 32 ∧
        self.getElementsCount = 0 ∧ self.pBucketData = (w.bucket a i).pData ∧
        self.pBucket = if i < (w.allocs a).bucketsCount then some (a, i) else none := by
    intro checked machine faults
    refine ⟨?_, faults, ?_, ?_, ?_, ?_, ?_⟩
    · rw [World.setTls_toMachine, machine]
    all_goals rw [isSelf]
    rfl
  have warmed : forall (num : Nat) (w' : World), w'.Uses
      ((TlsPoolBucket.warmupDrain t i num (TlsPoolBucket.warmupFill scheme a t i num 0 w').1
        (TlsPoolBucket.warmupFill scheme a t i num 0 w').2).check .tlsInitCount
          (decide (((TlsPoolBucket.warmupDrain t i num
            (TlsPoolBucket.warmupFill scheme a t i num 0 w').1
            (TlsPoolBucket.warmupFill scheme a t i num 0 w').2).tls t i).getElementsCount = num))) :=
    fun num w' => ((World.warmupFill_uses scheme a t i num 0 w').trans
      (World.warmupDrain_uses t i num _ _)).trans (World.check_uses _ _ _)
  unfold TlsPoolBucket.init
  simp only [World.check_toMachine, ← isSelf]
  cases warmupOptions with
  | cold => exact ⟨_, self, World.Uses.refl _, attached _ (by simp) (by simp)⟩
  | warm => exact ⟨_, self, warmed _ _, attached _ (by simp) (by simp)⟩
  | hot => exact ⟨_, self, warmed _ _, attached _ (by simp) (by simp)⟩

/-- The allocator can be used: nothing that it follows is null. -/
structure World.Standing (a : Nat) (w : World) : Prop where
  fitted : forall u j, (w.tls u j).Fitted
  lists : forall i, i < (w.allocs a).bucketsCount -> (w.bucket a i).pData ≠ 0
  count_le : (w.allocs a).bucketsCount ≤ maxBucketCount
  unharmed : ¬ w.Harmed

theorem World.Standing.of_layout (standing : w.Standing a) (layout : w'.layout = w.layout)
    (fitted : forall u j, (w'.tls u j).Fitted) (unharmed : ¬ w'.Harmed) : w'.Standing a := by
  have same : (w'.allocs a).layout = (w.allocs a).layout := congrFun layout a
  have count := congrArg Allocator.bucketsCount same
  change (w'.allocs a).bucketsCount = (w.allocs a).bucketsCount at count
  refine ⟨fitted, fun i bound => ?_, count ▸ standing.count_le, unharmed⟩
  have pData := congrArg (fun alloc => (alloc.buckets i).pData) same
  change (w'.bucket a i).pData = (w.bucket a i).pData at pData
  rw [pData]
  exact standing.lists i (count ▸ bound)

/-- Use does not end it. -/
theorem World.Standing.uses (standing : w.Standing a) (uses : w.Uses w') : w'.Standing a :=
  standing.of_layout uses.layout (fun u j => (standing.fitted u j).used (uses.tls u j))
    (fun harmed => standing.unharmed (uses.stores standing.fitted harmed))

/-- One round of `CreateThreadCache` has attached cache bucket `i`, whatever the fallback heap
has answered. -/
structure SlotAttached (a t i elementsNum : Nat) (w w' : World) : Prop where
  others : forall u j, ¬ (u = t ∧ j = i) -> (w.tls u j).Used (w'.tls u j)
  layout : w'.layout = w.layout
  pStorageL1 : (w'.tls t i).pStorageL1 =
    w.heap.answer (stackElements elementsNum * 4) cacheLineSize
  maxElementsCount : (w'.tls t i).maxElementsCount = elementsNum % 2 ^ 32
  standing : i < (w.allocs a).bucketsCount ->
    w.heap.answer (stackElements elementsNum * 4) cacheLineSize ≠ 0 ∨ elementsNum % 2 ^ 32 = 0 ->
    w.Standing a -> w'.Standing a

theorem createSlot_attached (scheme : Partitioning) (w : World) (a t i elementsNum : Nat)
    (warmupOptions : CacheWarmupOptions) :
    SlotAttached a t i elementsNum w (w.createSlot scheme a t i elementsNum warmupOptions) := by
  have opened : w.createSlot scheme a t i elementsNum warmupOptions = TlsPoolBucket.init scheme
    { w with heap := (w.heap.alloc (stackElements elementsNum * 4) cacheLineSize).2 } t
    (w.heap.answer (stackElements elementsNum * 4) cacheLineSize) (stackElements elementsNum)
    warmupOptions a i := rfl
  rcases init_uses scheme
    { w with heap := (w.heap.alloc (stackElements elementsNum * 4) cacheLineSize).2 } t
    (w.heap.answer (stackElements elementsNum * 4) cacheLineSize) (stackElements elementsNum)
    warmupOptions a i with
    ⟨attached, self, uses, machine, faults, pStorageL1, capacity, empty, pData, pBucket⟩
  rw [← opened] at uses
  have slot : attached.tls t i = self := by rw [machine, Machine.setTls_same]
  have others : forall u j, ¬ (u = t ∧ j = i) -> attached.tls u j = w.tls u j := by
    intro u j other
    rw [machine, Machine.setTls_of_ne _ _ _ _ other]
  have layout : attached.layout = w.layout := by rw [machine]; rfl
  have capacity : self.maxElementsCount = elementsNum % 2 ^ 32 := by
    rw [capacity]
    unfold stackElements maxCacheItemsCount
    omega
  refine ⟨?_, uses.layout.trans layout, ?_, ?_, ?_⟩
  · intro u j other
    exact others u j other ▸ uses.tls u j
  · rw [(uses.tls t i).pStorageL1, slot, pStorageL1]
  · rw [(uses.tls t i).maxElementsCount, slot, capacity]
  · intro bound enough standing
    apply World.Standing.uses _ uses
    apply standing.of_layout layout
    · intro u j
      by_cases here : u = t ∧ j = i
      · rw [here.1, here.2, slot]
        rcases enough with served | closed
        · right
          rw [pStorageL1, pData, pBucket]
          exact ⟨served, standing.lists i bound, by rw [if_pos bound]; rfl⟩
        · exact Or.inl ⟨capacity.trans closed, empty⟩
      · rw [others u j here]
        exact standing.fitted u j
    · rw [World.Harmed, faults]
      exact standing.unharmed

/-- The fallback heap serves every stack that `CreateThreadCache` asks for, except
that of an entry 0. -/
def World.stacksSuffice (scheme : Partitioning) (a t : Nat) (warmupOptions : CacheWarmupOptions) :
    Nat -> List Nat -> World -> Bool
  | _, [], _ => true
  | i, elementsNum :: options, w =>
      decide ((w.allocs a).bucketsCount ≤ i) ||
        ((decide (w.heap.answer (stackElements elementsNum * 4) cacheLineSize ≠ 0) ||
            decide (elementsNum % 2 ^ 32 = 0)) &&
          stacksSuffice scheme a t warmupOptions (i + 1) options
            (w.createSlot scheme a t i elementsNum warmupOptions))

theorem createFrom_succ (scheme : Partitioning) (a t : Nat) (warmupOptions : CacheWarmupOptions)
    {i elementsNum : Nat} {options : List Nat} (inside : ¬ (w.allocs a).bucketsCount ≤ i) :
    Allocator.createThreadCacheFrom scheme a t warmupOptions i (elementsNum :: options) w =
      Allocator.createThreadCacheFrom scheme a t warmupOptions (i + 1) options
        (w.createSlot scheme a t i elementsNum warmupOptions) := by
  rw [Allocator.createThreadCacheFrom, if_neg inside]
  rfl

/-- The loop of `CreateThreadCache` only uses the cache buckets that it does not create. -/
theorem createFrom_used (scheme : Partitioning) (a t : Nat) (warmupOptions : CacheWarmupOptions) :
    forall (options : List Nat) (i : Nat) (w : World) (u j : Nat), ¬ (u = t ∧ i ≤ j) ->
      (w.tls u j).Used
        ((Allocator.createThreadCacheFrom scheme a t warmupOptions i options w).tls u j) := by
  intro options
  induction options with
  | nil => exact fun _ _ _ _ _ => TlsPoolBucket.Used.refl _
  | cons elementsNum options ih =>
      intro i w u j other
      by_cases past : (w.allocs a).bucketsCount ≤ i
      · rw [Allocator.createThreadCacheFrom, if_pos past]
        exact TlsPoolBucket.Used.refl _
      rw [createFrom_succ scheme a t warmupOptions past]
      have here := createSlot_attached scheme w a t i elementsNum warmupOptions
      exact (here.others u j (fun same => other ⟨same.1, Nat.le_of_eq same.2.symm⟩)).trans
        (ih (i + 1) _ u j (fun later => other ⟨later.1, Nat.le_of_succ_le later.2⟩))

/-- When the stacks suffice the allocator can be used afterwards. -/
theorem createFrom_standing (scheme : Partitioning) (a t : Nat)
    (warmupOptions : CacheWarmupOptions) : forall (options : List Nat) (i : Nat) (w : World),
    w.Standing a -> w.stacksSuffice scheme a t warmupOptions i options = true ->
      (Allocator.createThreadCacheFrom scheme a t warmupOptions i options w).Standing a := by
  intro options
  induction options with
  | nil => exact fun _ _ standing _ => standing
  | cons elementsNum options ih =>
      intro i w standing suffice
      by_cases past : (w.allocs a).bucketsCount ≤ i
      · rw [Allocator.createThreadCacheFrom, if_pos past]
        exact standing
      rw [createFrom_succ scheme a t warmupOptions past]
      rw [World.stacksSuffice, decide_eq_false past, Bool.false_or, Bool.and_eq_true,
        Bool.or_eq_true, decide_eq_true_iff, decide_eq_true_iff] at suffice
      have here := createSlot_attached scheme w a t i elementsNum warmupOptions
      exact ih (i + 1) _ (here.standing (Nat.lt_of_not_le past) suffice.1 standing) suffice.2

/-- When all cache buckets without a stack are closed afterwards, the stacks have sufficed. -/
theorem createFrom_suffices (scheme : Partitioning) (a t : Nat)
    (warmupOptions : CacheWarmupOptions) : forall (options : List Nat) (i : Nat) (w : World),
    (forall j, i ≤ j ->
      let self := (Allocator.createThreadCacheFrom scheme a t warmupOptions i options w).tls t j
      self.pStorageL1 = 0 -> self.maxElementsCount = 0) ->
    w.stacksSuffice scheme a t warmupOptions i options = true := by
  intro options
  induction options with
  | nil => exact fun _ _ _ => rfl
  | cons elementsNum options ih =>
      intro i w closed
      rw [World.stacksSuffice]
      by_cases past : (w.allocs a).bucketsCount ≤ i
      · rw [decide_eq_true past, Bool.true_or]
      rw [createFrom_succ scheme a t warmupOptions past] at closed
      rw [decide_eq_false past, Bool.false_or, Bool.and_eq_true, Bool.or_eq_true,
        decide_eq_true_iff, decide_eq_true_iff]
      have here := createSlot_attached scheme w a t i elementsNum warmupOptions
      have kept := createFrom_used scheme a t warmupOptions options (i + 1)
        (w.createSlot scheme a t i elementsNum warmupOptions) t i
        (fun later => Nat.not_succ_le_self i later.2)
      refine ⟨?_, ih (i + 1) _ (fun j later => closed j (Nat.le_of_succ_le later))⟩
      by_cases served : w.heap.answer (stackElements elementsNum * 4) cacheLineSize = 0
      · right
        rw [← here.maxElementsCount, ← kept.maxElementsCount]
        apply closed i (Nat.le_refl i)
        rw [kept.pStorageL1, here.pStorageL1]
        exact served
      · exact Or.inl served

end SmMalloc
