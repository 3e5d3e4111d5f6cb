import SmMalloc.Model.SmallFloat
import SmMalloc.Pool.Requests

namespace SmMalloc

open Foundation

/-!
# The search for a block is a first fit

`Allocate` looks into the thread's cache of the request's own size class, then
into the central lists of that class and of the suitably aligned classes among
the next three, and falls back to the heap.  Nothing about this depends on the
invariant of the pool: it is shown here for every state of the caches and of
the lists, as long as the buckets and the caches know where their data is.
-/

variable {scheme : Partitioning} {w : World} {a t i j : Nat} {bytesCount alignment : Nat}

/-! ## Where the search starts and how it goes on -/

/-- The largest request of a scheme whose size class can be trusted. -/
def Partitioning.requestLimit : Partitioning -> Nat
  | .linear => 2 ^ 64 - 1
  | .float => 2 ^ 31
  | .piecewise => 2 ^ 64 - 1

theorem Partitioning.le_requestLimit (integral : scheme ≠ .float)
    (bytesBound : bytesCount < 2 ^ 64) : bytesCount ≤ scheme.requestLimit := by
  cases scheme with
  | float => exact absurd rfl integral
  | linear => exact Nat.le_sub_one_of_lt bytesBound
  | piecewise => exact Nat.le_sub_one_of_lt bytesBound

/-- The elements of the request's own class are aligned as requested. -/
theorem requestIndex_dvd (positive : 0 < bytesCount)
    (limit : bytesCount ≤ scheme.requestLimit) (valid : ValidAlignment alignment)
    (inside : requestIndex scheme bytesCount alignment < maxBucketCount) :
    alignment ∣ scheme.getBucketSizeInBytesByIndex (requestIndex scheme bytesCount alignment) := by
  by_cases integral : scheme = .float
  · subst integral
    have page : alignment ≤ 4096 := valid.le_max
    have small : bytesCount ≤ 2 ^ 31 := limit
    have aligned := align_eq_roundUp valid positive (by omega)
    have whole : alignment ∣ 2 ^ 31 := Dvd.dvd.trans valid.dvd_max (by decide)
    have below : align bytesCount alignment ≤ 2 ^ 31 := by
      rcases whole with ⟨c, product⟩
      have quotient : (bytesCount - 1) / alignment < c := by
        rw [Nat.div_lt_iff_lt_mul valid.pos, Nat.mul_comm, ← product]
        omega
      rw [aligned, roundUp, product, Nat.mul_comm]
      exact Nat.mul_le_mul_left _ quotient
    have atLeast := le_align valid positive (by omega)
    rcases valid with ⟨k, small, rfl⟩
    exact Partitioning.float_index_dvd (by omega) (Nat.le_trans below (by decide))
      (dvd_align ⟨k, small, rfl⟩)
  · have bound : bytesCount < 2 ^ 64 := by
      cases scheme with
      | linear => exact Nat.lt_of_le_of_lt limit (by decide)
      | float => exact absurd rfl integral
      | piecewise => exact Nat.lt_of_le_of_lt limit (by decide)
    exact (Suitable.fits (Partitioning.sized integral) positive bound valid inside
      (Or.inl rfl)).2

/-- The inner loop stops at the first aligned bucket. -/
theorem nextAligned_least {next k : Nat} (valid : ValidAlignment alignment) :
    forall (fuel i : Nat), Allocator.nextAligned scheme alignment fuel i = some next ->
      i < k -> k < next -> ¬ alignment ∣ scheme.getBucketSizeInBytesByIndex k := by
  intro fuel
  induction fuel with
  | zero => intro i impossible; cases impossible
  | succ fuel ih =>
      intro i found above below
      unfold Allocator.nextAligned at found
      split at found
      next => cases found; omega
      next misaligned =>
        by_cases here : k = i + 1
        · subst here
          exact fun divides => misaligned ((isAligned_iff valid).mpr divides)
        · exact ih (i + 1) found (by omega) below

/-- More fuel does not change what the inner loop finds. -/
theorem nextAligned_more {next : Nat} : forall (fuel more i : Nat),
    Allocator.nextAligned scheme alignment fuel i = some next ->
      Allocator.nextAligned scheme alignment (fuel + more) i = some next := by
  intro fuel
  induction fuel with
  | zero => intro more i impossible; cases impossible
  | succ fuel ih =>
      intro more i found
      rw [Nat.succ_add]
      unfold Allocator.nextAligned at found ⊢
      split at found
      next aligned => rw [if_pos aligned]; exact found
      next misaligned => rw [if_neg misaligned]; exact ih more (i + 1) found

/-- The inner loop always finds an aligned bucket. -/
theorem nextAligned_found (scheme : Partitioning) (bound : i < maxBucketCount)
    (valid : ValidAlignment alignment) :
    ∃ next, Allocator.nextAligned scheme alignment Allocator.alignedSearchSteps i = some next := by
  rcases scheme.reach bound valid with ⟨j, above, within, aligned⟩
  exact Option.isSome_iff_exists.mp (nextAligned_isSome valid aligned _ i above within)

/-! ## The central lists -/

/-- Bucket `j` of the range is aligned as requested and has a block on its list. -/
structure Eligible (scheme : Partitioning) (m : Machine) (a alignment first last j : Nat) :
    Prop where
  above : first ≤ j
  below : j < last
  aligned : alignment ∣ scheme.getBucketSizeInBytesByIndex j
  nonempty : (m.bucket a j).head ≠ TaggedIndex.invalid

/-- The eligible bucket of the range with the lowest index. -/
structure FirstEligible (scheme : Partitioning) (m : Machine) (a alignment first last j : Nat) :
    Prop where
  eligible : Eligible scheme m a alignment first last j
  least : forall k, Eligible scheme m a alignment first last k -> j ≤ k

/-- Bucket `j` of the range is the first one or aligned as requested, and has a
block on its list.  The loop does not ask whether the first bucket is aligned. -/
structure Offered (scheme : Partitioning) (m : Machine) (a alignment first last j : Nat) :
    Prop where
  above : first ≤ j
  below : j < last
  aligned : j = first ∨ alignment ∣ scheme.getBucketSizeInBytesByIndex j
  nonempty : (m.bucket a j).head ≠ TaggedIndex.invalid

theorem Eligible.offered {m : Machine} {first last : Nat}
    (eligible : Eligible scheme m a alignment first last j) :
    Offered scheme m a alignment first last j :=
  ⟨eligible.above, eligible.below, Or.inr eligible.aligned, eligible.nonempty⟩

theorem Offered.eligible {m : Machine} {first last : Nat}
    (offered : Offered scheme m a alignment first last j)
    (aligned : alignment ∣ scheme.getBucketSizeInBytesByIndex first) :
    Eligible scheme m a alignment first last j := by
  refine ⟨offered.above, offered.below, ?_, offered.nonempty⟩
  rcases offered.aligned with rfl | divides
  · exact aligned
  · exact divides

/-- A nonempty central list gives its first block. -/
theorem alloc_nonempty {m : Machine} (data : (m.bucket a j).pData ≠ 0)
    (nonempty : (m.bucket a j).head ≠ TaggedIndex.invalid) :
    (PoolBucket.alloc m a j).1 = (m.bucket a j).pData + (m.bucket a j).head.offset.toNat ∧
      (PoolBucket.alloc m a j).1 ≠ 0 := by
  rw [PoolBucket.alloc, if_neg nonempty]
  refine ⟨rfl, ?_⟩
  simp only
  omega

theorem alloc_empty {m : Machine} (empty : (m.bucket a j).head = TaggedIndex.invalid) :
    PoolBucket.alloc m a j = (0, m) := if_pos empty

/-- The loop over the central lists takes from the first bucket on offer. -/
theorem allocateFromCentral_firstFit (scheme : Partitioning) (enableStatistic : Bool) {last : Nat}
    (valid : ValidAlignment alignment) (small : last ≤ maxBucketCount) :
    forall (rounds i : Nat) (w : World), last ≤ i + rounds ->
    (forall j, j < last -> (w.bucket a j).pData ≠ 0) ->
    let popped := Allocator.allocateFromCentral scheme enableStatistic a alignment last rounds i w
    (∃ j, Offered scheme w.toMachine a alignment i last j ∧
        (forall k, Offered scheme w.toMachine a alignment i last k -> j ≤ k) ∧
        popped.1 = (PoolBucket.alloc w.toMachine a j).1 ∧
        popped.2.toMachine = (PoolBucket.alloc w.toMachine a j).2 ∧
        popped.2.tally a = (w.tally a).enter enableStatistic (Tally.serve j)) ∨
      ((forall j, ¬ Offered scheme w.toMachine a alignment i last j) ∧ popped.1 = 0 ∧
        popped.2.toMachine = w.toMachine ∧ popped.2.tally a = w.tally a) := by
  intro rounds
  induction rounds with
  | zero =>
      intro i w covered _
      refine Or.inr ⟨fun j offered => ?_, rfl, rfl, rfl⟩
      have above := offered.above
      have below := offered.below
      omega
  | succ rounds ih =>
      intro i w covered data popped
      by_cases inside : i < last
      · have bound : i < maxBucketCount := Nat.lt_of_lt_of_le inside small
        have opened : popped = Allocator.allocateFromCentral scheme enableStatistic a alignment last
          (rounds + 1) i w := rfl
        simp only [Allocator.allocateFromCentral, if_pos inside,
          World.check_true w (decide_eq_true bound)] at opened
        by_cases empty : (w.bucket a i).head = TaggedIndex.invalid
        · rcases nextAligned_found scheme bound valid with ⟨next, found⟩
          have step := nextAligned_some valid _ i found
          rw [alloc_empty empty, found] at opened
          simp only [ne_eq, not_true_eq_false, if_false] at opened
          have later := ih next (w.countBucket enableStatistic a i (fun stats =>
            { stats with missCount := stats.missCount + 1 })) (by omega) (by simpa using data)
          simp only [World.countBucket_toMachine, World.tally_miss (· + 1)] at later
          rw [opened]
          -- the buckets that the search has skipped are empty or misaligned
          have skipped : forall j, Offered scheme w.toMachine a alignment i last j ->
              Offered scheme w.toMachine a alignment next last j := by
            intro j offered
            have other : j ≠ i := fun here => offered.nonempty (here ▸ empty)
            have aligned := offered.aligned.resolve_left other
            have above := offered.above
            refine ⟨?_, offered.below, Or.inr aligned, offered.nonempty⟩
            by_contra before
            exact nextAligned_least valid _ i found (by omega) (by omega) aligned
          rcases later with ⟨j, offered, least, taken⟩ | ⟨none, nothing⟩
          · refine Or.inl ⟨j, ⟨?_, offered.below, Or.inr ?_, offered.nonempty⟩,
              fun k other => least k (skipped k other), taken⟩
            · have above := offered.above
              omega
            · exact (offered.eligible step.2).aligned
          · exact Or.inr ⟨fun j offered => none j (skipped j offered), nothing⟩
        · have served := alloc_nonempty (data i inside) empty
          rw [if_pos served.2] at opened
          rw [opened]
          refine Or.inl ⟨i, ⟨Nat.le_refl i, inside, Or.inl rfl, empty⟩,
            fun k offered => offered.above, rfl, ?_, ?_⟩
          · simp only [World.countBucket_toMachine, World.countGlobal_toMachine]
          · exact World.tally_hit (fun _ => rfl) (fun _ => rfl)
      · have opened : popped = (0, w) := if_neg inside
        rw [opened]
        refine Or.inr ⟨fun j offered => ?_, rfl, rfl, rfl⟩
        have above := offered.above
        have below := offered.below
        omega

/-- Once the range is covered, more rounds do not change the outcome. -/
theorem allocateFromCentral_more (enableStatistic : Bool) {last : Nat} (more : Nat)
    (valid : ValidAlignment alignment) : forall (rounds i : Nat) (w : World), last ≤ i + rounds ->
    Allocator.allocateFromCentral scheme enableStatistic a alignment last (rounds + more) i w =
      Allocator.allocateFromCentral scheme enableStatistic a alignment last rounds i w := by
  intro rounds
  induction rounds with
  | zero =>
      intro i w covered
      have outside : ¬ i < last := by omega
      cases more with
      | zero => rfl
      | succ more => simp only [Allocator.allocateFromCentral, if_neg outside]
  | succ rounds ih =>
      intro i w covered
      rw [Nat.succ_add]
      simp only [Allocator.allocateFromCentral]
      cases found : Allocator.nextAligned scheme alignment Allocator.alignedSearchSteps i with
      | none => rfl
      | some next =>
          have above := (nextAligned_some valid _ i found).1
          simp only [ih next _ (by omega)]

/-! ## The cache -/

/-- The block at `p` has been taken from the cache bucket, and nothing else has changed. -/
def CachePopped (m : Machine) (t i p : Nat) (m' : Machine) : Prop :=
  ∃ o slot, p = (m.tls t i).pBucketData + o ∧ m' = m.setTls t i slot ∧
    (m.tls t i).offsets.Perm (o :: slot.offsets)

theorem allocFromCache_nonempty (nonempty : (w.tls t i).getElementsCount ≠ 0) :
    CachePopped w.toMachine t i (Allocator.allocFromCache w t i).1
      (Allocator.allocFromCache w t i).2.toMachine := by
  by_cases level0 : (w.tls t i).numElementsL0 > 0
  · refine ⟨_, _, ?_, ?_, TlsPoolBucket.offsets_popL0 level0⟩
    · simp only [Allocator.allocFromCache, if_pos level0]
    · simp only [Allocator.allocFromCache, if_pos level0, World.setTls_toMachine,
        World.check_toMachine]
  · have level1 : (w.tls t i).numElementsL1 > 0 := by
      unfold TlsPoolBucket.getElementsCount at nonempty
      omega
    refine ⟨_, _, ?_, ?_, TlsPoolBucket.offsets_popL1 level1⟩
    · simp only [Allocator.allocFromCache, if_neg level0, if_pos level1]
    · simp only [Allocator.allocFromCache, if_neg level0, if_pos level1, World.setTls_toMachine,
        World.check_toMachine]

/-! ## The whole search -/

/-- The first block of the central list of bucket `j` has been taken, and
nothing else has changed. -/
structure ListPopped (m : Machine) (a j p : Nat) (m' : Machine) : Prop where
  head : p = (m.bucket a j).pData + (m.bucket a j).head.offset.toNat
  machine : m' = m.setBucket a j { m.bucket a j with head := TaggedIndex.load m.mem p }
  rest : forall o central,
    TaggedIndex.kind.Linked (linksAt m.mem (m.bucket a j).pData) (m.bucket a j).head
      (o :: central) ->
    p = (m.bucket a j).pData + o ∧
      TaggedIndex.kind.Linked (linksAt m'.mem (m'.bucket a j).pData) (m'.bucket a j).head central

theorem alloc_popped {m : Machine} (data : (m.bucket a j).pData ≠ 0)
    (nonempty : (m.bucket a j).head ≠ TaggedIndex.invalid) :
    ListPopped m a j (PoolBucket.alloc m a j).1 (PoolBucket.alloc m a j).2 := by
  refine ⟨(alloc_nonempty data nonempty).1, ?_, ?_⟩
  · rw [PoolBucket.alloc, if_neg nonempty]
  · intro o central linked
    rcases linked with ⟨-, rfl, linked⟩
    rw [PoolBucket.alloc, if_neg nonempty]
    refine ⟨rfl, ?_⟩
    simp only [Machine.setBucket_bucket_same, Machine.setBucket_mem]
    exact linked

/-- The calling thread has a block of the request's own class in its cache. -/
def CacheServes (scheme : Partitioning) (m : Machine) (a t bytesCount alignment : Nat) : Prop :=
  requestIndex scheme bytesCount alignment < (m.allocs a).bucketsCount ∧
    (m.tls t (requestIndex scheme bytesCount alignment)).getElementsCount ≠ 0

/-- The end of the range of buckets that `Allocate` looks at. -/
def searchEnd (scheme : Partitioning) (m : Machine) (a bytesCount alignment : Nat) : Nat :=
  min (requestIndex scheme bytesCount alignment + 4) (m.allocs a).bucketsCount

/-- What `Allocate` does, in terms of the state before it.  `search` and
`rounds` say that its two loops come to an end: the model's fuel is enough. -/
structure FirstFit (scheme : Partitioning) (enableStatistic : Bool) (w : World)
    (a t bytesCount alignment : Nat) : Prop where
  aligned : requestIndex scheme bytesCount alignment < (w.allocs a).bucketsCount ->
    alignment ∣ scheme.getBucketSizeInBytesByIndex (requestIndex scheme bytesCount alignment)
  search : forall i, i < (w.allocs a).bucketsCount -> ∃ next, i < next ∧
    alignment ∣ scheme.getBucketSizeInBytesByIndex next ∧
    (forall k, i < k -> k < next -> ¬ alignment ∣ scheme.getBucketSizeInBytesByIndex k) ∧
    forall more, Allocator.nextAligned scheme alignment (Allocator.alignedSearchSteps + more) i =
      some next
  rounds : forall more (w' : World), Allocator.allocateFromCentral scheme enableStatistic a
      alignment (min (w.allocs a).bucketsCount
        ((requestIndex scheme bytesCount alignment + 4) % 2 ^ 64)) (4 + more)
      (requestIndex scheme bytesCount alignment) w' =
    Allocator.allocateFromCentral scheme enableStatistic a alignment
      (min (w.allocs a).bucketsCount ((requestIndex scheme bytesCount alignment + 4) % 2 ^ 64)) 4
      (requestIndex scheme bytesCount alignment) w'
  cached : CacheServes scheme w.toMachine a t bytesCount alignment ->
    CachePopped w.toMachine t (requestIndex scheme bytesCount alignment)
      (Allocator.allocate scheme enableStatistic w a t bytesCount alignment).1
      (Allocator.allocate scheme enableStatistic w a t bytesCount alignment).2.toMachine
  popped : ¬ CacheServes scheme w.toMachine a t bytesCount alignment -> forall j,
    FirstEligible scheme w.toMachine a alignment (requestIndex scheme bytesCount alignment)
      (searchEnd scheme w.toMachine a bytesCount alignment) j ->
    ListPopped w.toMachine a j
      (Allocator.allocate scheme enableStatistic w a t bytesCount alignment).1
      (Allocator.allocate scheme enableStatistic w a t bytesCount alignment).2.toMachine
  generic : ¬ CacheServes scheme w.toMachine a t bytesCount alignment ->
    (forall j, ¬ Eligible scheme w.toMachine a alignment
      (requestIndex scheme bytesCount alignment) (searchEnd scheme w.toMachine a bytesCount alignment) j) ->
    (Allocator.allocate scheme enableStatistic w a t bytesCount alignment).1 =
        w.heap.answer bytesCount alignment ∧
      (Allocator.allocate scheme enableStatistic w a t bytesCount alignment).2.toMachine =
        { w.toMachine with heap := (w.heap.alloc bytesCount alignment).2 }
  asks : (Allocator.allocate scheme enableStatistic w a t bytesCount alignment).2.heap.events =
      .alloc bytesCount alignment
        (Allocator.allocate scheme enableStatistic w a t bytesCount alignment).1 ::
        w.heap.events <->
    ¬ CacheServes scheme w.toMachine a t bytesCount alignment ∧
      forall j, ¬ Eligible scheme w.toMachine a alignment
        (requestIndex scheme bytesCount alignment) (searchEnd scheme w.toMachine a bytesCount alignment) j

/-- What the search goes by: the buckets and the cache know where their data is. -/
structure Searchable (scheme : Partitioning) (m : Machine) (a t bytesCount alignment : Nat) :
    Prop where
  count_le : (m.allocs a).bucketsCount ≤ maxBucketCount
  pData : forall i, i < (m.allocs a).bucketsCount -> (m.bucket a i).pData ≠ 0
  pBucketData : CacheServes scheme m a t bytesCount alignment ->
    (m.tls t (requestIndex scheme bytesCount alignment)).pBucketData ≠ 0

/-- The outcomes of the search, each with the state in which it happens. -/
inductive Found (scheme : Partitioning) (m : Machine) (a t bytesCount alignment : Nat) :
    Nat -> Machine -> Prop
  | cached {p : Nat} {m' : Machine} (serves : CacheServes scheme m a t bytesCount alignment)
      (taken : CachePopped m t (requestIndex scheme bytesCount alignment) p m') :
      Found scheme m a t bytesCount alignment p m'
  | popped {p : Nat} {m' : Machine} (j : Nat)
      (misses : ¬ CacheServes scheme m a t bytesCount alignment)
      (first : FirstEligible scheme m a alignment (requestIndex scheme bytesCount alignment)
        (searchEnd scheme m a bytesCount alignment) j)
      (taken : ListPopped m a j p m') :
      Found scheme m a t bytesCount alignment p m'
  | generic (misses : ¬ CacheServes scheme m a t bytesCount alignment)
      (none : forall j, ¬ Eligible scheme m a alignment (requestIndex scheme bytesCount alignment)
        (searchEnd scheme m a bytesCount alignment) j) :
      Found scheme m a t bytesCount alignment (m.heap.answer bytesCount alignment)
        { m with heap := (m.heap.alloc bytesCount alignment).2 }

/-- The outcomes of the search when its first bucket need not be aligned as
requested, each with its entry in the tally. -/
inductive Searched (scheme : Partitioning) (enableStatistic : Bool) (w : World)
    (a t bytesCount alignment p : Nat) (w' : World) : Prop
  | cached (serves : CacheServes scheme w.toMachine a t bytesCount alignment)
      (taken : CachePopped w.toMachine t (requestIndex scheme bytesCount alignment) p w'.toMachine)
      (entry : w'.tally a = (w.tally a).enter enableStatistic
        (fun c => c.attempt.serve (requestIndex scheme bytesCount alignment)))
  | popped (j : Nat) (misses : ¬ CacheServes scheme w.toMachine a t bytesCount alignment)
      (offered : Offered scheme w.toMachine a alignment (requestIndex scheme bytesCount alignment)
        (searchEnd scheme w.toMachine a bytesCount alignment) j)
      (least : forall k, Offered scheme w.toMachine a alignment
        (requestIndex scheme bytesCount alignment)
        (searchEnd scheme w.toMachine a bytesCount alignment) k -> j ≤ k)
      (taken : ListPopped w.toMachine a j p w'.toMachine)
      (entry : w'.tally a = (w.tally a).enter enableStatistic (fun c => c.attempt.serve j))
  | generic (misses : ¬ CacheServes scheme w.toMachine a t bytesCount alignment)
      (none : forall j, ¬ Offered scheme w.toMachine a alignment
        (requestIndex scheme bytesCount alignment)
        (searchEnd scheme w.toMachine a bytesCount alignment) j)
      (answer : p = w.heap.answer bytesCount alignment)
      (machine : w'.toMachine =
        { w.toMachine with heap := (w.heap.alloc bytesCount alignment).2 })
      (entry : w'.tally a = (w.tally a).enter enableStatistic
        (fun c => c.attempt.route
          (requestIndex scheme bytesCount alignment < (w.allocs a).bucketsCount)))

/-- The range of the search is the same with and without the wrap-around of
its end, which happens only where the range is empty. -/
theorem offered_iff {m : Machine} (count : (w.allocs a).bucketsCount ≤ maxBucketCount) :
    Offered scheme m a alignment (requestIndex scheme bytesCount alignment)
        (min (w.allocs a).bucketsCount
          ((requestIndex scheme bytesCount alignment + 4) % 2 ^ 64)) j <->
      Offered scheme m a alignment (requestIndex scheme bytesCount alignment)
        (searchEnd scheme w.toMachine a bytesCount alignment) j := by
  by_cases inside : requestIndex scheme bytesCount alignment < (w.allocs a).bucketsCount
  · unfold maxBucketCount at count
    rw [searchEnd, Nat.mod_eq_of_lt (by omega), Nat.min_comm]
  · unfold searchEnd
    constructor
    · intro offered
      have above := offered.above
      have below := offered.below
      omega
    · intro offered
      have above := offered.above
      have below := offered.below
      omega

/-- `Allocate` of any size, also of one whose class cannot be trusted. -/
theorem allocate_searched (enableStatistic : Bool) (positive : 0 < bytesCount)
    (valid : ValidAlignment alignment)
    (searchable : Searchable scheme w.toMachine a t bytesCount alignment) :
    Searched scheme enableStatistic w a t bytesCount alignment
      (Allocator.allocate scheme enableStatistic w a t bytesCount alignment).1
      (Allocator.allocate scheme enableStatistic w a t bytesCount alignment).2 := by
  rcases allocate_opened scheme enableStatistic w a t valid (Nat.ne_of_gt positive) with
    ⟨counted, same, -, attempted, opened⟩
  have count := searchable.count_le
  by_cases serves : CacheServes scheme w.toMachine a t bytesCount alignment
  · have nonempty : (counted.tls t
        (requestIndex scheme bytesCount alignment)).getElementsCount ≠ 0 := by
      rw [same]
      exact serves.2
    have taken := allocFromCache_nonempty nonempty
    have nonzero : (Allocator.allocFromCache counted t
        (requestIndex scheme bytesCount alignment)).1 ≠ 0 := by
      rcases taken with ⟨o, slot, address, -, -⟩
      have data := searchable.pBucketData serves
      rw [address, same]
      omega
    have inside : requestIndex scheme bytesCount alignment <
        (counted.allocs a).bucketsCount := by rw [same]; exact serves.1
    rw [same] at taken
    simp only [Allocator.allocateFromThreadCache, if_pos inside, if_pos nonzero] at opened
    rw [opened]
    refine Searched.cached serves ?_ ?_
    · simp only [World.countBucket_toMachine, World.countGlobal_toMachine]
      exact taken
    · refine World.tally_cacheHit.trans ?_
      rw [World.allocFromCache_tally, attempted, Tally.enter_enter]
  · have missed : Allocator.allocateFromThreadCache enableStatistic a t
        (requestIndex scheme bytesCount alignment) counted = (0, counted) := by
      unfold Allocator.allocateFromThreadCache
      rw [same]
      by_cases inside : requestIndex scheme bytesCount alignment < (w.allocs a).bucketsCount
      · have empty : (counted.tls t (requestIndex scheme bytesCount alignment)).getElementsCount =
            0 := by
          rw [same]
          exact not_not.mp (fun nonempty => serves ⟨inside, nonempty⟩)
        rw [if_pos inside, allocFromCache_empty empty]
        rfl
      · rw [if_neg inside]
    rw [missed] at opened
    simp only [ne_eq, not_true_eq_false, if_false, same] at opened
    obtain ⟨last, isLast⟩ : ∃ last, last = min (w.allocs a).bucketsCount
      ((requestIndex scheme bytesCount alignment + 4) % 2 ^ 64) := ⟨_, rfl⟩
    rw [← isLast] at opened
    have within : last ≤ (w.allocs a).bucketsCount := isLast ▸ Nat.min_le_left _ _
    have covered : last ≤ requestIndex scheme bytesCount alignment + 4 := by omega
    have search := allocateFromCentral_firstFit (a := a) scheme enableStatistic valid
      (Nat.le_trans within count) 4 (requestIndex scheme bytesCount alignment) counted covered
      (fun j below => by rw [same]; exact searchable.pData j (Nat.lt_of_lt_of_le below within))
    have range : forall j, Offered scheme w.toMachine a alignment
        (requestIndex scheme bytesCount alignment) last j <->
        Offered scheme w.toMachine a alignment (requestIndex scheme bytesCount alignment)
          (searchEnd scheme w.toMachine a bytesCount alignment) j :=
      fun j => isLast ▸ offered_iff count
    simp only [same] at search
    rcases search with ⟨j, offered, least, address, machine, entry⟩ | ⟨none, zero, machine, entry⟩
    · have data := searchable.pData j (Nat.lt_of_lt_of_le offered.below within)
      have taken := alloc_popped data offered.nonempty
      have nonzero := (alloc_nonempty data offered.nonempty).2
      rw [← address] at taken nonzero
      rw [← machine] at taken
      rw [if_pos nonzero] at opened
      rw [attempted, Tally.enter_enter] at entry
      rw [opened]
      exact Searched.popped j serves ((range j).mp offered)
        (fun k other => least k ((range k).mpr other)) taken entry
    · have answered := allocateFromGeneric_eq enableStatistic
        (decide (requestIndex scheme bytesCount alignment < (w.allocs a).bucketsCount)) a bytesCount
        alignment (Allocator.allocateFromCentral scheme enableStatistic a alignment last 4
          (requestIndex scheme bytesCount alignment) counted).2
      simp only [zero, not_true_eq_false, if_false] at opened
      rw [opened]
      refine Searched.generic serves (fun j offered => none j ((range j).mpr offered)) ?_ ?_ ?_
      · rw [answered.1, machine]
      · rw [answered.2.1, machine]
      · rw [World.allocateFromGeneric_tally, entry, attempted, Tally.enter_enter]

/-- Where the bucket of the size class is aligned as well, the offers are the
eligible buckets. -/
theorem Searched.found {w' : World} {p : Nat} {enableStatistic : Bool}
    (searched : Searched scheme enableStatistic w a t bytesCount alignment p w')
    (aligned : requestIndex scheme bytesCount alignment < (w.allocs a).bucketsCount ->
      alignment ∣ scheme.getBucketSizeInBytesByIndex (requestIndex scheme bytesCount alignment)) :
    Found scheme w.toMachine a t bytesCount alignment p w'.toMachine := by
  cases searched with
  | cached serves taken => exact Found.cached serves taken
  | popped j misses offered least taken =>
      have above := offered.above
      have below := Nat.lt_of_lt_of_le offered.below (Nat.min_le_right _ _)
      have eligible := offered.eligible (aligned (Nat.lt_of_le_of_lt above below))
      exact Found.popped j misses ⟨eligible, fun k other => least k other.offered⟩ taken
  | generic misses none answer machine =>
      rw [answer, machine]
      exact Found.generic misses (fun j other => none j other.offered)

theorem allocate_found (enableStatistic : Bool) (positive : 0 < bytesCount)
    (limit : bytesCount ≤ scheme.requestLimit) (valid : ValidAlignment alignment)
    (searchable : Searchable scheme w.toMachine a t bytesCount alignment) :
    Found scheme w.toMachine a t bytesCount alignment
      (Allocator.allocate scheme enableStatistic w a t bytesCount alignment).1
      (Allocator.allocate scheme enableStatistic w a t bytesCount alignment).2.toMachine := by
  apply (allocate_searched enableStatistic positive valid searchable).found
  intro inside
  exact requestIndex_dvd positive limit valid (Nat.lt_of_lt_of_le inside searchable.count_le)

/-- The first eligible bucket is determined by the state. -/
theorem FirstEligible.unique {m : Machine} {first last k : Nat}
    (left : FirstEligible scheme m a alignment first last j)
    (right : FirstEligible scheme m a alignment first last k) : j = k :=
  Nat.le_antisymm (left.least k right.eligible) (right.least j left.eligible)

namespace Found

variable {m m' : Machine} {p : Nat} (found : Found scheme m a t bytesCount alignment p m')

include found

theorem of_serves (serves : CacheServes scheme m a t bytesCount alignment) :
    CachePopped m t (requestIndex scheme bytesCount alignment) p m' := by
  cases found with
  | cached _ taken => exact taken
  | popped j misses _ _ => exact absurd serves misses
  | generic misses _ => exact absurd serves misses

theorem of_eligible (misses : ¬ CacheServes scheme m a t bytesCount alignment)
    (first : FirstEligible scheme m a alignment
      (requestIndex scheme bytesCount alignment) (searchEnd scheme m a bytesCount alignment) j) :
    ListPopped m a j p m' := by
  cases found with
  | cached serves _ => exact absurd serves misses
  | popped k _ other taken => exact first.unique other ▸ taken
  | generic _ none => exact absurd first.eligible (none j)

theorem of_none (misses : ¬ CacheServes scheme m a t bytesCount alignment)
    (none : forall j, ¬ Eligible scheme m a alignment
      (requestIndex scheme bytesCount alignment) (searchEnd scheme m a bytesCount alignment) j) :
    p = m.heap.answer bytesCount alignment ∧
      m' = { m with heap := (m.heap.alloc bytesCount alignment).2 } := by
  cases found with
  | cached serves _ => exact absurd serves misses
  | popped k _ other _ => exact absurd other.eligible (none k)
  | generic _ _ => exact ⟨rfl, rfl⟩

/-- The fallback heap is asked, for the original size, exactly if the pool has nothing. -/
theorem asks_iff : m'.heap.events = .alloc bytesCount alignment p :: m.heap.events <->
    ¬ CacheServes scheme m a t bytesCount alignment ∧
      forall j, ¬ Eligible scheme m a alignment
        (requestIndex scheme bytesCount alignment)
        (searchEnd scheme m a bytesCount alignment) j := by
  have changed : forall (event : HeapEvent) (events : List HeapEvent),
      events ≠ event :: events := fun event events => (List.cons_ne_self event events).symm
  cases found with
  | cached serves taken =>
      rcases taken with ⟨o, slot, -, rfl, -⟩
      exact iff_of_false (changed _ _) (fun none => none.1 serves)
  | popped j _ first taken =>
      rw [taken.machine]
      exact iff_of_false (changed _ _) (fun none => none.2 j first.eligible)
  | generic misses none => exact iff_of_true rfl ⟨misses, none⟩

end Found

/-- `Allocate` is a complete and terminating first fit, in every state. -/
theorem allocate_firstFit (enableStatistic : Bool) (positive : 0 < bytesCount)
    (limit : bytesCount ≤ scheme.requestLimit) (valid : ValidAlignment alignment)
    (searchable : Searchable scheme w.toMachine a t bytesCount alignment) :
    FirstFit scheme enableStatistic w a t bytesCount alignment := by
  have count := searchable.count_le
  have found := allocate_found enableStatistic positive limit valid searchable
  refine ⟨fun inside => requestIndex_dvd positive limit valid (Nat.lt_of_lt_of_le inside count),
    ?_, ?_, found.of_serves, fun misses j => found.of_eligible misses, found.of_none,
    found.asks_iff⟩
  · intro i bound
    rcases nextAligned_found scheme (Nat.lt_of_lt_of_le bound count) valid with ⟨next, found⟩
    have step := nextAligned_some valid _ i found
    exact ⟨next, step.1, step.2, fun k above below => nextAligned_least valid _ i found above below,
      fun more => nextAligned_more _ more i found⟩
  · intro more w'
    apply allocateFromCentral_more enableStatistic more valid
    exact Nat.le_trans (Nat.min_le_right _ _) (Nat.mod_le _ _)

/-- Size classes up to a page in buckets of a page.  The only block of 3072
bytes is gone, and the next class is not aligned to 1024. -/
def drainedWorld : World :=
  (Allocator.allocate .piecewise true
    (Allocator.init .piecewise (World.initial everyOtherPage) 0 21 4096) 0 0 3072 1024).2

/-- One bucket, and the cache of thread 0 filled from it. -/
def warmWorld : World :=
  Allocator.createThreadCache .piecewise
    (Allocator.init .piecewise (World.initial everyOtherPage) 0 1 4096) 0 0 .hot [3]

theorem allocate_firstFit_drained :
    (FirstFit .piecewise true drainedWorld 0 0 3072 1024 ∧
        (Allocator.allocate .piecewise true drainedWorld 0 0 3072 1024).1 =
          (drainedWorld.bucket 0 20).pData) ∧
      FirstFit .piecewise true warmWorld 0 0 5 4 ∧ CacheServes .piecewise warmWorld.toMachine 0 0 5 4 :=
  ⟨⟨allocate_firstFit true (by decide) (by decide) ⟨10, by decide, rfl⟩
      ⟨by decide +kernel, by decide +kernel, fun serves => absurd serves.2 (by decide +kernel)⟩,
      by decide +kernel⟩,
    allocate_firstFit true (by decide) (by decide) ⟨2, by decide, rfl⟩
      ⟨by decide +kernel, by decide +kernel, fun _ => by decide +kernel⟩,
    by decide +kernel, by decide +kernel⟩

end SmMalloc
