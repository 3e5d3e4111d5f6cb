import SmMalloc.Session.Conservation

namespace SmMalloc

open Foundation

/-!
# A warm-up takes its share and nothing else

What a new thread cache holds has come from the central lists of its own
buckets, as many blocks as were asked for or there were.  All else is as it
was: a block that a request of the warm-up found in a higher bucket or on the
fallback heap has been given back, and only the stacks are left of the fallback
heap.  Destroying the cache brings everything back.
-/

variable {scheme : Partitioning} {pool : Pool scheme} {s : Session} {a t : Nat}
variable {m m' : Machine} {rest out : List Nat} {_bucketsCount _bucketSizeInBytes : Nat}

/-- The central list of bucket `i` is `central`, as the links in memory say. -/
def Session.CentralList (s : Session) (a i : Nat) (central : List Nat) : Prop :=
  TaggedIndex.kind.Linked (linksAt s.world.mem (s.world.bucket a i).pData)
    (s.world.bucket a i).head central

/-- What the thread cache has and what is left. -/
structure Session.SharesOut (scheme : Partitioning) (s created : Session) (a t : Nat)
    (warmupOptions : CacheWarmupOptions) (options : List Nat) : Prop where
  lists : forall i, i < (s.world.allocs a).bucketsCount -> ∃ central central',
    s.CentralList a i central ∧ central.Nodup ∧ created.CentralList a i central' ∧
      (central' ++ (created.world.tls t i).offsetsL1).Perm central
  level0 : forall i, (created.world.tls t i).numElementsL0 = 0
  level1 : forall i v central, options[i]? = some v -> s.CentralList a i central ->
    (created.world.tls t i).numElementsL1 = min (warmupOptions.amount v) central.length
  unused : forall i, options.length ≤ i -> (created.world.tls t i).Idle
  stack : forall i v, options[i]? = some v ->
    (created.world.tls t i).stackRegion.size = 4 * (v + maxCacheItemsCount)
  live : created.world.heap.live =
    created.world.stacksOf t 0 options.length ++ s.world.heap.live
  ends : forall i v, options[i]? = some v ->
    (Allocator.createThreadCacheFrom scheme a t warmupOptions 0 (options.take i)
      s.world).WarmupEnds scheme a t i v warmupOptions

/-- All central lists have the blocks that they had, and the fallback heap has
the live blocks that it had. -/
structure Session.Restored (s restored : Session) (a t : Nat) : Prop where
  lists : forall i, i < (s.world.allocs a).bucketsCount -> ∃ central central',
    s.CentralList a i central ∧ restored.CentralList a i central' ∧ central'.Perm central
  live : restored.world.heap.live.Perm s.world.heap.live
  idle : forall i, (restored.world.tls t i).Idle

/-- The same shares of the fallback heap make the same blocks live. -/
theorem Ledger.live_congr (ledger : Ledger pool rest m out) (ledger' : Ledger pool rest m' out)
    (shares : m'.heapShares pool rest out = m.heapShares pool rest out) (p : Nat) :
    m'.heap.Live p <-> m.heap.Live p := by
  rw [ledger'.custody.covers, ledger.custody.covers, shares]

/-- Two states with no cache for thread `t` and equal caches for the others
have the same shares of the fallback heap. -/
theorem heapShares_congr (threads : forall u, u ≠ t -> m'.tls u = m.tls u)
    (idle : forall i, (m.tls t i).Idle) (idle' : forall i, (m'.tls t i).Idle) :
    m'.heapShares pool rest out = m.heapShares pool rest out := by
  funext holder
  cases holder with
  | pool => rfl
  | stack u i =>
      change stackOf (m'.tls u i) = stackOf (m.tls u i)
      by_cases same : u = t
      · subst same
        rw [stackOf, stackOf, (idle i).pStorageL1, (idle' i).pStorageL1]
      · rw [threads u same]
  | client => rfl
  | rest => rfl

/-- Two lists of live blocks, both taken from one, that have the same addresses. -/
theorem GenericAllocator.live_perm {first middle last : GenericAllocator}
    (apart : middle.live.Pairwise Region.Apart) (nodup : first.live.Nodup)
    (nodup' : last.live.Nodup) (fromFirst : forall r, r ∈ first.live -> r ∈ middle.live)
    (fromLast : forall r, r ∈ last.live -> r ∈ middle.live)
    (same : forall p, last.Live p <-> first.Live p) : last.live.Perm first.live := by
  have within : forall {left right : GenericAllocator},
      (forall r, r ∈ left.live -> r ∈ middle.live) ->
      (forall r, r ∈ right.live -> r ∈ middle.live) -> (forall p, left.Live p -> right.Live p) ->
      forall r, r ∈ left.live -> r ∈ right.live := by
    intro left right fromLeft fromRight live r member
    rcases List.mem_map.mp (live r.base (List.mem_map.mpr ⟨r, member, rfl⟩)) with
      ⟨r', member', base⟩
    rw [eq_of_base apart (fromLeft r member) (fromRight r' member') base.symm]
    exact member'
  apply (List.perm_ext_iff_of_nodup nodup' nodup).mpr
  intro r
  exact ⟨within fromLast fromFirst (fun p => (same p).mp) r,
    within fromFirst fromLast (fun p => (same p).mpr) r⟩

namespace Session.Sound

theorem centralList_iff (sound : s.Sound pool a rest) {i : Nat} (bound : i < pool.bucketsCount)
    (central : List Nat) : s.CentralList a i central <->
      BucketInv pool s.world.toMachine a i central (pool.offsets s.held i) := by
  have pData : (s.world.bucket a i).pData = pool.pData i :=
    (SmMalloc.Sound.inv sound).represents.pData i bound
  rcases (SmMalloc.Sound.inv sound).buckets i bound with ⟨central', bucket⟩
  constructor
  · intro list
    unfold CentralList at list
    rw [pData] at list
    rw [bucket.linked.unique list]
    exact bucket
  · intro bucket'
    rw [CentralList, pData]
    exact bucket'.linked

/-- `CreateThreadCache` takes its share. -/
theorem sharesOut (sound : s.Sound pool a rest) (warmupOptions : CacheWarmupOptions)
    {options : List Nat} (cacheless : s.Cacheless t)
    (length : options.length ≤ (s.world.allocs a).bucketsCount)
    (entries : forall v, v ∈ options -> 2 ≤ v ∧ v + maxCacheItemsCount < 2 ^ 32)
    (served : s.world.stacksServed scheme a t warmupOptions 0 options = true) :
    s.SharesOut scheme (Session.step scheme a s (.createThreadCache t warmupOptions options)) a t
      warmupOptions options := by
  have count := (SmMalloc.Sound.inv sound).represents.bucketsCount
  have idles := sound.idle cacheless
  have created := sound.created ⟨cacheless, length, entries, served⟩
  have after : (Session.step scheme a s
      (.createThreadCache t warmupOptions options)).Sound pool a rest := created.sound
  have unused : forall i, options.length ≤ i ->
      ((Session.step scheme a s (.createThreadCache t warmupOptions options)).world.tls t i).Idle := by
    intro i beyond
    have same := created.others i (by omega)
    exact same ▸ idles i
  have level0 : forall i, ((Session.step scheme a s
      (.createThreadCache t warmupOptions options)).world.tls t i).numElementsL0 = 0 := by
    intro i
    by_cases configured : i < options.length
    · have warmed := created.slots i _ (List.getElem?_eq_getElem configured)
      rw [Nat.zero_add] at warmed
      exact warmed.level0
    · exact (unused i (Nat.le_of_not_lt configured)).numElementsL0
  refine ⟨?_, level0, ?_, unused, ?_, created.live, ?_⟩
  · intro i bound
    rw [count] at bound
    rcases (SmMalloc.Sound.inv sound).buckets i bound with ⟨central, bucket⟩
    rcases (SmMalloc.Sound.inv after).buckets i bound with ⟨central', bucket'⟩
    have perm := bucket.share bucket' created.confined.threads
    rw [cached_of_idle (idles i), List.append_nil] at perm
    refine ⟨central, central', (sound.centralList_iff bound central).mpr bucket,
      bucket.custody.nodup Holder.central, (after.centralList_iff bound central').mpr bucket', ?_⟩
    have cached := after.cached t i
    have nothing : ((Session.step scheme a s
        (.createThreadCache t warmupOptions options)).world.tls t i).offsetsL0 = [] := by
      rw [TlsPoolBucket.offsetsL0, level0 i]
      rfl
    rw [TlsPoolBucket.offsets, nothing, List.nil_append] at cached
    rw [← cached]
    exact perm
  · intro i v central found list
    have bound : i < pool.bucketsCount := by
      have := (List.getElem?_eq_some_iff.mp found).1
      omega
    have warmed := created.slots i v found
    rw [Nat.zero_add] at warmed
    exact warmed.level1 central ((sound.centralList_iff bound central).mp list)
  · intro i v found
    have warmed := created.slots i v found
    rw [Nat.zero_add] at warmed
    have capacity : ((Session.step scheme a s (.createThreadCache t warmupOptions options)).world.tls t
      i).maxElementsCount = v := warmed.capacity
    rw [TlsPoolBucket.stackRegion, capacity, stackElements,
      Nat.mod_eq_of_lt (entries v (List.mem_of_getElem? found)).2, Nat.mul_comm]
  · intro i v found
    have ends := created.ends i v found
    rwa [Nat.zero_add] at ends

/-- Destroying the cache that has just been created restores everything. -/
theorem restored (sound : s.Sound pool a rest) (warmupOptions : CacheWarmupOptions)
    {options : List Nat} (cacheless : s.Cacheless t)
    (length : options.length ≤ (s.world.allocs a).bucketsCount)
    (entries : forall v, v ∈ options -> 2 ≤ v ∧ v + maxCacheItemsCount < 2 ^ 32)
    (served : s.world.stacksServed scheme a t warmupOptions 0 options = true) :
    s.Restored (Session.step scheme a
      (Session.step scheme a s (.createThreadCache t warmupOptions options))
      (.destroyThreadCache t)) a t := by
  have count := (SmMalloc.Sound.inv sound).represents.bucketsCount
  have idles := sound.idle cacheless
  have created := sound.created ⟨cacheless, length, entries, served⟩
  have destroyed := SmMalloc.Sound.destroyThreadCache created.sound t
  obtain ⟨last, isLast⟩ : ∃ last, last = Session.step scheme a
    (Session.step scheme a s (.createThreadCache t warmupOptions options))
    (.destroyThreadCache t) := ⟨_, rfl⟩
  have world : last.world = Allocator.destroyThreadCache
      (Allocator.createThreadCache scheme s.world a t warmupOptions options) t := by
    simp only [isLast, Session.step]
  have held : last.held = s.held := by simp only [isLast, Session.step]
  rw [← world] at destroyed
  rw [← isLast]
  have after : last.Sound pool a rest := by
    unfold Session.Sound
    rw [held]
    exact destroyed.sound
  have threads : forall u, u ≠ t -> last.world.tls u = s.world.tls u := fun u other =>
    (destroyed.confined.threads u other).trans (created.confined.threads u other)
  have idles' := destroyed.idle
  refine ⟨?_, ?_, idles'⟩
  · intro i bound
    rw [count] at bound
    rcases (SmMalloc.Sound.inv sound).buckets i bound with ⟨central, bucket⟩
    rcases destroyed.sound.central_length threads (idles i) (idles' i) bound bucket with
      ⟨central', bucket', perm⟩
    refine ⟨central, central', (sound.centralList_iff bound central).mpr bucket,
      (after.centralList_iff bound central').mpr ?_, perm⟩
    rw [held]
    exact bucket'
  · have ledger := SmMalloc.Sound.ledger sound
    apply GenericAllocator.live_perm created.sound.ledger.apart
      (live_nodup ledger.apart).of_map (live_nodup destroyed.sound.ledger.apart).of_map
    · intro r member
      rw [created.live]
      exact List.mem_append_right _ member
    · exact destroyed.live
    · exact ledger.live_congr destroyed.sound.ledger (heapShares_congr threads idles idles')

end Session.Sound

/-- In every session a thread without a cache may create one, and it takes
exactly its share; destroying the cache right away restores everything. -/
theorem Session.warmup_share (integral : scheme ≠ .float)
    (wellFormed : WellFormed scheme _bucketsCount _bucketSizeInBytes)
    (reachable : (Session.system scheme a _bucketsCount _bucketSizeInBytes).Reachable s)
    (warmupOptions : CacheWarmupOptions) {options : List Nat} (cacheless : s.Cacheless t)
    (length : options.length ≤ (s.world.allocs a).bucketsCount)
    (entries : forall v, v ∈ options -> 2 ≤ v ∧ v + maxCacheItemsCount < 2 ^ 32)
    (served : s.world.stacksServed scheme a t warmupOptions 0 options = true) :
    s.SharesOut scheme (step scheme a s (.createThreadCache t warmupOptions options)) a t
        warmupOptions options ∧
      s.Restored (step scheme a (step scheme a s (.createThreadCache t warmupOptions options))
        (.destroyThreadCache t)) a t := by
  rcases reachable_sound wellFormed (Partitioning.sized integral) reachable with
    ⟨pool, rest, -, sound⟩
  exact ⟨sound.sharesOut warmupOptions cacheless length entries served,
    sound.restored warmupOptions cacheless length entries served⟩

theorem Session.warmup_share_onePage :
    onePageUsed.SharesOut .piecewise (step .piecewise 0 onePageUsed
        (.createThreadCache 1 .hot [300])) 0 1 .hot [300] ∧
      onePageUsed.Restored (step .piecewise 0 (step .piecewise 0 onePageUsed
        (.createThreadCache 1 .hot [300])) (.destroyThreadCache 1)) 0 1 :=
  warmup_share (by decide) (onePage_wellFormed (by decide)) onePageUsed_reachable .hot
    (fun _ => rfl) (by decide) (by decide) (by decide +kernel)

end SmMalloc
