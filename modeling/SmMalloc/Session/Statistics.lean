import SmMalloc.Session.Share
import SmMalloc.Session.Unsized

namespace SmMalloc

open Foundation

/-!
# The statistics reconcile with what the clients hold

Every request is counted where it ends: with the bucket that serves it, or with
the reason why the fallback heap has to.  Every block of the pool that comes
back is counted by `Free`, whoever has taken it.  A warm-up takes its blocks
with the counters switched off, and a block of another bucket goes back through
`Free`, with the counters on.  So the counters reconcile as long as no warm-up
spills.  None of them wraps around here: they are natural numbers.
-/

variable {scheme : Partitioning} {pool : Pool scheme} {w w' : World} {s : Session}
variable {a t p bytesCount alignment : Nat} {rest out held : List Nat}
variable {_bucketsCount _bucketSizeInBytes : Nat}

/-! ## Entries and holdings -/

/-- A block in hand is one more of its own bucket. -/
theorem Pool.length_offsets_cons (p : Nat) (held : List Nat) :
    (fun i => (pool.offsets (p :: held) i).length) =
      Function.update (fun i => (pool.offsets held i).length) (pool.findBucket p)
        ((pool.offsets held (pool.findBucket p)).length + 1) := by
  funext i
  by_cases here : i = pool.findBucket p
  · subst here
    rw [Function.update_self]
    simp [Pool.offsets]
  · rw [Function.update_of_ne here, Pool.offsets_cons_of_ne (fun same => here same.symm)]

/-- The tally reconciles with what is held. -/
def Balances (pool : Pool scheme) (a : Nat) (w : World) (held : List Nat) : Prop :=
  (w.tally a).Reconciled pool.bucketsCount (fun i => (pool.offsets held i).length)

/-- The entry of a request that has been answered with `p`. -/
inductive Entered (pool : Pool scheme) (a : Nat) (w : World) (p : Nat) (w' : World) : Prop
  | served (inside : pool.findBucket p < pool.bucketsCount)
      (entry : w'.tally a = (w.tally a).attempt.serve (pool.findBucket p))
  | routed (elsewhere : pool.bucketsCount ≤ pool.findBucket p) (isValidBucket : Bool)
      (entry : w'.tally a = (w.tally a).attempt.route isValidBucket)

/-- `Alloc` makes an entry for the bucket that its block comes from. -/
theorem PoolInv.alloc_entered (inv : PoolInv pool a w.toMachine out) (ready : w.Ready a t)
    (positive : 0 < bytesCount) (valid : ValidAlignment alignment) :
    Entered pool a w (Allocator.alloc scheme w a t bytesCount alignment).1
      (Allocator.alloc scheme w a t bytesCount alignment).2 := by
  have searched := allocate_searched true positive valid
    (inv.searchable ready bytesCount alignment)
  change Searched scheme true w a t bytesCount alignment
    (Allocator.alloc scheme w a t bytesCount alignment).1
    (Allocator.alloc scheme w a t bytesCount alignment).2 at searched
  have count := inv.represents.bucketsCount
  generalize (Allocator.alloc scheme w a t bytesCount alignment).1 = p,
    (Allocator.alloc scheme w a t bytesCount alignment).2 = w' at searched ⊢
  cases searched with
  | cached serves taken entry =>
      have inside := serves.1
      rw [count] at inside
      have owner := (ready.usable _).resolve_right serves.2
      rcases taken with ⟨o, slot, address, -, perm⟩
      rcases inv.buckets _ inside with ⟨central, bucket⟩
      have cached : o ∈ w.cached a (requestIndex scheme bytesCount alignment) t := by
        rw [cached_of_owner owner]
        exact perm.mem_iff.mpr List.mem_cons_self
      rw [(inv.attached t _ _ owner).2.pBucketData] at address
      have found := Pool.findBucket_block inside (bucket.isBlock_cached cached)
      rw [← address] at found
      exact .served (found.symm ▸ inside) (found.symm ▸ entry)
  | popped j _ offered _ taken entry =>
      have inside : j < pool.bucketsCount :=
        count ▸ Nat.lt_of_lt_of_le offered.below (Nat.min_le_right _ _)
      rcases inv.buckets j inside with ⟨central, bucket⟩
      rcases bucket.linked.uncons offered.nonempty with ⟨tail, list, -⟩
      have data : (w.bucket a j).pData = pool.pData j := inv.represents.pData j inside
      have found : pool.findBucket p = j := by
        rw [taken.head, data]
        exact Pool.findBucket_block inside (bucket.isBlock_central (list ▸ List.mem_cons_self))
      exact .served (found.symm ▸ inside) (found.symm ▸ entry)
  | generic _ _ answer _ entry =>
      exact .routed (answer ▸ inv.answer_elsewhere positive) _ entry

/-- The fallback heap's own reallocation returns what the heap has answered. -/
theorem genericRealloc_fst (w : World) (p bytesCount alignment : Nat) :
    (Allocator.genericRealloc w p bytesCount alignment).1 = w.heap.answer bytesCount alignment := by
  unfold Allocator.genericRealloc
  simp only
  split
  next null => exact null.symm
  next => rfl

namespace Balances

theorem same (balances : Balances pool a w held) (tally : w'.tally a = w.tally a) :
    Balances pool a w' held := by
  rw [Balances, tally]
  exact balances

theorem perm {held' : List Nat} (balances : Balances pool a w held) (perm : held.Perm held') :
    Balances pool a w held' :=
  Tally.Reconciled.congr balances (fun _ _ => (Pool.offsets_perm perm).length_eq.symm)

/-- Addresses outside the pool do not count. -/
theorem elsewhere (elsewhere : pool.bucketsCount ≤ pool.findBucket p) :
    Balances pool a w (p :: held) <-> Balances pool a w held := by
  have same : forall i, i < pool.bucketsCount ->
      (pool.offsets (p :: held) i).length = (pool.offsets held i).length := by
    intro i bound
    rw [Pool.offsets_cons_of_ne (by omega)]
  exact ⟨fun balances => Tally.Reconciled.congr balances (fun i bound => (same i bound).symm),
    fun balances => Tally.Reconciled.congr balances same⟩

/-- A request has been answered. -/
theorem alloc (balances : Balances pool a w held) (entered : Entered pool a w p w') :
    Balances pool a w' (p :: held) := by
  cases entered with
  | served inside entry =>
      rw [Balances, entry, Pool.length_offsets_cons]
      exact Tally.Reconciled.serve balances inside
  | routed elsewhere isValidBucket entry =>
      apply (Balances.elsewhere elsewhere).mpr
      rw [Balances, entry]
      exact Tally.Reconciled.route balances isValidBucket

/-- A request has been refused. -/
theorem refused (balances : Balances pool a w held) (entered : Entered pool a w 0 w') :
    Balances pool a w' held := by
  have readable := pool.base_readable
  exact (elsewhere (Pool.count_le_findBucket (by omega) (Or.inl (by omega)))).mp
    (balances.alloc entered)

/-- `Free` counts exactly the blocks of the pool. -/
theorem free (balances : Balances pool a w (p :: held)) (represents : pool.Represents (w.allocs a))
    (above : kMaxValidAlignment < p) : Balances pool a (Allocator.free w a t p) held := by
  by_cases inside : pool.findBucket p < pool.bucketsCount
  · have counted : kMaxValidAlignment < p ∧
        (w.allocs a).findBucket p < (w.allocs a).bucketsCount :=
      ⟨above, by rw [represents.findBucket, represents.bucketsCount]; exact inside⟩
    rw [Balances, World.free_entry, if_pos counted, represents.findBucket]
    exact Tally.Reconciled.free balances (Pool.length_offsets_cons p held)
  · apply ((Balances.elsewhere (Nat.le_of_not_lt inside)).mp balances).same
    rw [World.free_entry, if_neg]
    rw [represents.findBucket, represents.bucketsCount]
    exact fun both => inside both.2

/-- A block of the pool that has to move is a request and a block that comes back. -/
theorem realloc_block (balances : Balances pool a w (p :: out))
    (sound : Sound pool a rest w.toMachine (p :: out)) (above : kMaxValidAlignment < p)
    (inside : pool.findBucket p < pool.bucketsCount) (nonempty : bytesCount ≠ 0)
    (valid : ValidAlignment alignment) :
    let r := Allocator.realloc scheme w a t p bytesCount alignment
    (r.1 = 0 -> Balances pool a r.2 (p :: out)) ∧ (r.1 ≠ 0 -> Balances pool a r.2 (r.1 :: out)) := by
  intro r
  have opened : r = _ := realloc_inside above nonempty (by
    rw [sound.inv.represents.findBucket, sound.inv.represents.bucketsCount]
    exact inside)
  simp only [sound.inv.represents.findBucket] at opened
  by_cases fits : bytesCount ≤ scheme.getBucketSizeInBytesByIndex (pool.findBucket p)
  · rw [if_pos fits] at opened
    rw [opened]
    exact ⟨fun null => absurd null (by omega), fun _ => balances⟩
  rw [if_neg fits] at opened
  have entered := sound.inv.alloc_entered (sound.ready t)
    (Nat.pos_of_ne_zero nonempty) valid
  have allocated := sound.request t valid nonempty
  by_cases served : (Allocator.alloc scheme w a t bytesCount alignment).1 = 0
  · rw [if_pos served] at opened
    rw [served] at entered
    rw [opened]
    exact ⟨fun _ => balances.refused entered, fun null => absurd rfl null⟩
  · rw [if_neg served, memmove_served served] at opened
    have represents := (sound.allocated (Nat.pos_of_ne_zero nonempty) allocated
      served).inv.represents
    generalize Allocator.alloc scheme w a t bytesCount alignment = allocation
      at served opened entered represents
    rcases allocation with ⟨p2, after⟩
    have both := (balances.alloc entered).perm (List.Perm.swap _ _ _)
    obtain ⟨moved, isMoved⟩ : ∃ moved : World, moved = { after with
        mem := after.mem.move p2 p
          (scheme.getBucketSizeInBytesByIndex (pool.findBucket p)) } := ⟨_, rfl⟩
    have tally : moved.tally a = after.tally a := by rw [isMoved]; rfl
    rw [opened, ← isMoved]
    exact ⟨fun null => absurd null served,
      fun _ => (both.same tally).free (by rw [isMoved]; exact represents) above⟩

/-- A block of the fallback heap that moves into the pool is a request; one that stays in the
heap is none. -/
theorem realloc_generic (balances : Balances pool a w (p :: out))
    (sound : Sound pool a rest w.toMachine (p :: out)) (above : kMaxValidAlignment < p)
    (elsewhere : pool.bucketsCount ≤ pool.findBucket p) (nonempty : bytesCount ≠ 0)
    (valid : ValidAlignment alignment) :
    let r := Allocator.realloc scheme w a t p bytesCount alignment
    (r.1 = 0 -> Balances pool a r.2 (p :: out)) ∧ (r.1 ≠ 0 -> Balances pool a r.2 (r.1 :: out)) := by
  intro r
  have inv := sound.inv
  have ready := sound.ready t
  have outside : ¬ (w.allocs a).findBucket p < (w.allocs a).bucketsCount := by
    rw [inv.represents.findBucket, inv.represents.bucketsCount]
    exact Nat.not_lt_of_le elsewhere
  rcases realloc_outside above nonempty valid outside with
    ⟨checked, -, machine, -, tally, opened⟩
  change r = _ at opened
  simp only [inv.represents.bucketsCount] at opened
  rw [← machine] at inv ready
  by_cases inside : requestIndex scheme bytesCount alignment < pool.bucketsCount
  · rw [if_pos inside] at opened
    have entered := inv.alloc_entered ready
      (Nat.pos_of_ne_zero nonempty) valid
    generalize Allocator.alloc scheme checked a t bytesCount alignment = allocation
      at entered opened
    rcases allocation with ⟨p2, after⟩
    have moved : r.2.tally a = after.tally a := by
      rw [opened]
      exact World.memmove_tally p2 p _
    have result : r.1 = p2 := congrArg Prod.fst opened
    rw [result]
    refine ⟨fun null => ?_, fun _ => ?_⟩
    · subst null
      exact ((balances.same tally).refused entered).same moved
    · have both := ((balances.same tally).alloc entered).perm (List.Perm.swap _ _ _)
      exact ((Balances.elsewhere elsewhere).mp both).same moved
  · rw [if_neg inside] at opened
    have moved : r.2.tally a = w.tally a := by
      rw [opened, World.genericRealloc_tally]
      exact tally
    refine ⟨fun _ => balances.same moved, fun _ => ?_⟩
    have beyond : pool.bucketsCount ≤ pool.findBucket r.1 := by
      rw [opened, genericRealloc_fst]
      exact inv.answer_elsewhere (Nat.pos_of_ne_zero nonempty)
    exact (Balances.elsewhere beyond).mpr
      (((Balances.elsewhere elsewhere).mp balances).same moved)

theorem realloc (balances : Balances pool a w (p :: out))
    (sound : Sound pool a rest w.toMachine (p :: out)) (above : kMaxValidAlignment < p)
    (nonempty : bytesCount ≠ 0) (valid : ValidAlignment alignment) :
    let r := Allocator.realloc scheme w a t p bytesCount alignment
    (r.1 = 0 -> Balances pool a r.2 (p :: out)) ∧ (r.1 ≠ 0 -> Balances pool a r.2 (r.1 :: out)) := by
  by_cases inside : pool.findBucket p < pool.bucketsCount
  · exact balances.realloc_block sound above inside nonempty valid
  · exact balances.realloc_generic sound above (Nat.le_of_not_lt inside) nonempty valid

end Balances

/-! ## Every operation makes its entries -/

namespace Session

/-- The counters of allocator `a` agree with each other and with what is held:
of the blocks that a bucket has handed out, those that have not been counted as
freed are held. -/
structure Reconciled (a : Nat) (s : Session) : Prop where
  attempts : (s.world.globalStats a).totalNumAllocationAttempts =
    (s.world.globalStats a).totalAllocationsServed +
      (s.world.globalStats a).totalAllocationsRoutedToDefaultAllocator
  reasons : (s.world.globalStats a).totalAllocationsRoutedToDefaultAllocator =
    (s.world.globalStats a).routingReasonBySize +
      (s.world.globalStats a).routingReasonSaturation
  served : (s.world.globalStats a).totalAllocationsServed =
    ∑ i ∈ Finset.range (s.world.allocs a).bucketsCount,
      ((s.world.bucketStats a i).cacheHitCount + (s.world.bucketStats a i).hitCount)
  balance : forall i, i < (s.world.allocs a).bucketsCount ->
    (((s.world.bucketStats a i).cacheHitCount + (s.world.bucketStats a i).hitCount : Nat) : Int) -
      (s.world.bucketStats a i).freeCount = (s.clientOffsets a i).length

/-- A warm-up asks for no more blocks than there are, unless the three buckets
that it would look at next have none. -/
def SpillFree (a : Nat) (s : Session) : Op -> Prop
  | .createThreadCache _ warmupOptions options => forall i v central, options[i]? = some v ->
      s.CentralList a i central -> warmupOptions.amount v ≤ central.length ∨
        forall j, i < j -> j < i + 4 -> j < (s.world.allocs a).bucketsCount ->
          (s.world.bucket a j).head = TaggedIndex.invalid
  | _ => True

/-- Sessions of an allocator whose counters are as its constructor leaves them. -/
def metered (scheme : Partitioning) (a _bucketsCount _bucketSizeInBytes : Nat) :
    Transition Session Op where
  start := fun s => Start scheme a _bucketsCount _bucketSizeInBytes s ∧
    s.world.globalStats a = ⟨0, 0, 0, 0, 0⟩ ∧ forall i, s.world.bucketStats a i = ⟨0, 0, 0, 0⟩
  allowed := AllowedUnsized scheme a
  next := step scheme a

namespace Sound

theorem reconciled (sound : s.Sound pool a rest) (balances : Balances pool a s.world s.held) :
    s.Reconciled a := by
  have count := (SmMalloc.Sound.inv sound).represents.bucketsCount
  refine ⟨balances.attempts, balances.reasons, ?_, ?_⟩
  · rw [count]
    exact balances.served
  · intro i bound
    rw [count] at bound
    have balance : (s.world.bucketStats a i).cacheHitCount + (s.world.bucketStats a i).hitCount =
        (s.world.bucketStats a i).freeCount + (pool.offsets s.held i).length :=
      balances.balance i bound
    rw [sound.clientOffsets bound, balance]
    omega

theorem alloc_balances (sound : s.Sound pool a rest) (valid : ValidAlignment alignment)
    (balances : Balances pool a s.world s.held) :
    Balances pool a (Allocator.alloc scheme s.world a t bytesCount alignment).2
      (grant s.held bytesCount (Allocator.alloc scheme s.world a t bytesCount alignment).1) := by
  by_cases empty : bytesCount = 0
  · subst empty
    rw [Sound.alloc_empty valid]
    exact balances
  have entered := (SmMalloc.Sound.inv sound).alloc_entered (SmMalloc.Sound.ready sound t)
    (Nat.pos_of_ne_zero empty) valid
  by_cases refused : (Allocator.alloc scheme s.world a t bytesCount alignment).1 = 0
  · rw [grant, if_pos (Or.inr refused)]
    rw [refused] at entered
    exact balances.refused entered
  · rw [grant, if_neg (not_or.mpr ⟨empty, refused⟩)]
    exact balances.alloc entered

theorem free_balances (sound : s.Sound pool a rest) (returnable : s.Returnable p)
    (balances : Balances pool a s.world s.held) :
    Balances pool a (Allocator.free s.world a t p) (s.held.erase p) := by
  rcases returnable with small | member
  · rw [free_empty small, sound.erase_empty small]
    exact balances
  · exact (balances.perm (List.perm_cons_erase member)).free
      (SmMalloc.Sound.inv sound).represents (sound.readable member).1

theorem realloc_balances (sound : s.Sound pool a rest) (returnable : s.Returnable p)
    (bytesBound : bytesCount < 2 ^ 64) (valid : ValidAlignment alignment)
    (balances : Balances pool a s.world s.held) :
    Balances pool a (Session.step scheme a s (.realloc t p bytesCount alignment)).world
      (Session.step scheme a s (.realloc t p bytesCount alignment)).held := by
  have after := sound.realloc (t := t) returnable bytesBound valid
  obtain ⟨r, isResult⟩ : ∃ r, r = Allocator.realloc scheme s.world a t p bytesCount alignment :=
    ⟨_, rfl⟩
  rw [step_realloc isResult] at after ⊢
  by_cases small : p ≤ kMaxValidAlignment
  · rw [if_pos (isReadable_of_le small), isResult, realloc_empty small]
    exact sound.alloc_balances valid balances
  have member := returnable.resolve_left small
  have above := Nat.lt_of_not_le small
  rw [if_neg (not_unreadable above)] at after ⊢
  by_cases empty : bytesCount = 0
  · rw [if_pos empty, isResult, empty, realloc_zero above]
    exact sound.free_balances (Or.inr member) balances
  rw [if_neg empty] at after ⊢
  have moved := (balances.perm (List.perm_cons_erase member)).realloc (t := t)
    (sound.returned member) above empty valid
  simp only [← isResult] at moved
  by_cases refused : r.1 = 0
  · rw [if_neg (not_not.mpr refused)] at after ⊢
    have represents := (SmMalloc.Sound.inv after).represents
    by_cases there : stillThere a r.2 p
    · rw [if_pos there]
      exact (moved.1 refused).perm (List.perm_cons_erase member).symm
    · rw [if_neg there]
      have elsewhere : pool.bucketsCount ≤ pool.findBucket p := by
        apply Nat.le_of_not_lt
        intro inside
        exact there ((stillThere_iff represents).mpr (Or.inl inside))
      exact (Balances.elsewhere elsewhere).mp (moved.1 refused)
  · rw [if_pos refused]
    exact moved.2 refused

/-- Only a warm-up that spills gives back what nobody has been handed. -/
theorem createThreadCache_balances {warmupOptions : CacheWarmupOptions} {options : List Nat}
    (sound : s.Sound pool a rest)
    (allowed : Allowed scheme a s (.createThreadCache t warmupOptions options))
    (spillFree : SpillFree a s (.createThreadCache t warmupOptions options))
    (balances : Balances pool a s.world s.held) :
    Balances pool a (Allocator.createThreadCache scheme s.world a t warmupOptions options)
      s.held := by
  have created := sound.created allowed
  have length := allowed.2.1
  have count := (SmMalloc.Sound.inv sound).represents.bucketsCount
  apply balances.same
  apply created.tally
  intro i v found central bucket
  rw [Nat.zero_add] at bucket ⊢
  have bound : i < pool.bucketsCount := by
    have := (List.getElem?_eq_some_iff.mp found).1
    omega
  have enough := spillFree i v central found ((sound.centralList_iff bound central).mpr bucket)
  rw [count] at enough
  exact enough

/-- What a step without a spill counts keeps the balance. -/
theorem step_balances {op : Op} (sound : s.Sound pool a rest) (allowed : Allowed scheme a s op)
    (spillFree : SpillFree a s op) (balances : Balances pool a s.world s.held) :
    Balances pool a (Session.step scheme a s op).world (Session.step scheme a s op).held := by
  cases op with
  | alloc t bytesCount alignment => exact sound.alloc_balances allowed.2 balances
  | free t p => exact sound.free_balances allowed balances
  | realloc t p bytesCount alignment =>
      exact sound.realloc_balances allowed.1 allowed.2.1 allowed.2.2 balances
  | createThreadCache t warmupOptions options =>
      exact sound.createThreadCache_balances allowed spillFree balances
  | destroyThreadCache t => exact balances.same (World.destroyThreadCache_tally s.world t)
  | write p k v => exact balances

end Sound

/-- `Init` counts nothing. -/
theorem init_stats (scheme : Partitioning) (w : World) (a _bucketsCount _bucketSizeInBytes : Nat) :
    (Allocator.init scheme w a _bucketsCount _bucketSizeInBytes).globalStats = w.globalStats ∧
      (Allocator.init scheme w a _bucketsCount _bucketSizeInBytes).bucketStats = w.bucketStats := by
  have check : forall (w : World) (site : Assertion) (holds : Bool),
      (w.check site holds).globalStats = w.globalStats ∧
        (w.check site holds).bucketStats = w.bucketStats := by
    intro w site holds
    unfold World.check
    split
    · exact ⟨rfl, rfl⟩
    · exact ⟨rfl, rfl⟩
  have buckets : forall (remaining i : Nat) (w : World),
      (Allocator.initBuckets scheme a remaining i w).globalStats = w.globalStats ∧
        (Allocator.initBuckets scheme a remaining i w).bucketStats = w.bucketStats := by
    intro remaining
    induction remaining with
    | zero => exact fun _ _ => ⟨rfl, rfl⟩
    | succ remaining ih =>
        intro i w
        unfold Allocator.initBuckets
        simp only [(ih _ _).1, (ih _ _).2]
        split
        · simp only [World.fault, (check _ _ _).1, (check _ _ _).2, and_self]
        · simp only [(check _ _ _).1, (check _ _ _).2, and_self]
  unfold Allocator.init
  simp only [World.checkAlign]
  split
  · exact ⟨rfl, rfl⟩
  split
  · exact check _ _ _
  · simp only [(buckets _ _ _).1, (buckets _ _ _).2, (check _ _ _).1, (check _ _ _).2, and_self]

/-- What `_sm_allocator_create` returns has counters of which none has counted anything yet. -/
theorem created_metered (sizeofAllocator : Nat) (idle : forall t i, (w.tls t i).Idle)
    (apart : w.heap.live.Pairwise Region.Apart) (clean : w.failed = [])
    (object : w.heap.answer sizeofAllocator cacheLineSize ≠ 0)
    (buffer : (w.heap.alloc sizeofAllocator cacheLineSize).2.answer
      (bufferBytes _bucketsCount _bucketSizeInBytes) kMaxValidAlignment ≠ 0) :
    let created := smAllocatorCreate scheme sizeofAllocator w _bucketsCount _bucketSizeInBytes
    (metered scheme created.1 _bucketsCount _bucketSizeInBytes).start ⟨created.2, []⟩ := by
  intro created
  obtain ⟨fresh, isFresh⟩ : ∃ fresh : World, fresh =
      { w with heap := (w.heap.alloc sizeofAllocator cacheLineSize).2 }.construct created.1 :=
    ⟨_, rfl⟩
  have opened : created.2 =
      Allocator.init scheme fresh created.1 _bucketsCount _bucketSizeInBytes := by
    rw [isFresh]
    rfl
  have machine := congrArg World.toMachine isFresh
  rw [World.construct_toMachine] at machine
  have failed : fresh.failed = [] := by
    rw [isFresh, World.construct_failed]
    exact clean
  have live : fresh.heap.live.Pairwise Region.Apart := by
    rw [machine]
    change (w.heap.alloc sizeofAllocator cacheLineSize).2.live.Pairwise Region.Apart
    rw [GenericAllocator.alloc_live object]
    exact List.pairwise_cons.mpr ⟨(GenericAllocator.serves_of_answer object).2.2.2.2, apart⟩
  have stats := init_stats scheme fresh created.1 _bucketsCount _bucketSizeInBytes
  rw [opened]
  refine ⟨⟨fresh, ⟨?_, ?_, live⟩, failed, ?_, rfl⟩, ?_, ?_⟩
  · rw [machine]
    exact Function.update_self created.1 _ _
  · intro t i
    rw [machine]
    exact idle t i
  · rw [machine]
    exact buffer
  · rw [stats.1, isFresh]
    exact Function.update_self created.1 _ _
  · intro i
    rw [stats.2, isFresh]
    simp only [World.construct, Function.update_self]

/-- The counters have no influence on what a session does. -/
theorem reachable_of_metered
    (reachable : ((metered scheme a _bucketsCount _bucketSizeInBytes).restrict
      (fun _ op => op.Asserted)).Reachable s) :
    (system scheme a _bucketsCount _bucketSizeInBytes).Reachable s := by
  apply reachable_iff_asserted.mpr
  exact reachable.mono rfl (fun _ first => first.1) (fun _ _ => id)

/-- With stacks of the proper size, and without a warm-up that spills, the counters
reconcile in every state of every session. -/
theorem statistics (integral : scheme ≠ .float)
    (wellFormed : WellFormed scheme _bucketsCount _bucketSizeInBytes)
    (reachable : ((metered scheme a _bucketsCount _bucketSizeInBytes).restrict
      (fun s op => op.Asserted ∧ SpillFree a s op)).Reachable s) : s.Reconciled a := by
  suffices balanced : ∃ (pool : Pool scheme) (rest : List Nat), s.Sound pool a rest ∧
      Balances pool a s.world s.held by
    rcases balanced with ⟨pool, rest, sound, balances⟩
    exact sound.reconciled balances
  apply reachable.invariant
  · rintro first ⟨start, globalStats, bucketStats⟩
    rcases reachable_sound wellFormed (Partitioning.sized integral)
      (Transition.Reachable.start start) with ⟨pool, rest, -, sound⟩
    rcases start with ⟨w, -, -, -, rfl⟩
    refine ⟨pool, rest, sound, ?_⟩
    have zero : (Allocator.init scheme w a _bucketsCount _bucketSizeInBytes).tally a =
        Tally.zero := by
      simp only at globalStats bucketStats
      simp only [World.tally, globalStats, bucketStats]
      rfl
    rw [Balances, zero]
    exact Tally.Reconciled.zero (fun _ _ => rfl)
  · rintro before op - ⟨pool, rest, sound, balances⟩ ⟨unsized, asserted, spillFree⟩
    have allowed := allowed_iff_asserted.mpr ⟨unsized, asserted⟩
    exact ⟨pool, rest, sound.step allowed, sound.step_balances allowed spillFree balances⟩

theorem statistics_onePage : onePageUsed.Reconciled 0 := by
  have permitted : ((metered .piecewise 0 1 4096).restrict
      (fun s op => op.Asserted ∧ SpillFree 0 s op)).Permitted onePage onePageRun := by
    refine ⟨⟨⟨fun _ => rfl, by decide, by decide, by decide⟩, by decide, ?_⟩,
      ⟨⟨by decide, valid_four⟩, trivial, trivial⟩, ⟨Or.inr (by decide), trivial, trivial⟩, trivial⟩
    intro i v central found _
    exact Or.inl (Nat.zero_le _)
  have start : ((metered .piecewise 0 1 4096).restrict
      (fun s op => op.Asserted ∧ SpillFree 0 s op)).Reachable onePage :=
    Transition.Reachable.start ⟨initial_start (by decide), rfl, fun _ => rfl⟩
  have used := start.after permitted
  rw [Transition.run_restrict, Transition.run_congr (system .piecewise 0 1 4096)
    (metered .piecewise 0 1 4096) (fun _ _ => rfl)] at used
  exact statistics (by decide) (onePage_wellFormed (by decide)) used

/-- Classes of up to 3072 bytes in buckets of a page: buckets 17 and 18 have one block each. -/
def classesBelowPage : Session :=
  Session.initial .piecewise (fun k => 131072 * (k + 1)) 0 19 4096

/-- A warm-up asks bucket 17 for two blocks. -/
def classesBelowPageSpilled : Session :=
  (metered .piecewise 0 19 4096).run classesBelowPage
    [.createThreadCache 0 .hot (List.replicate 18 2)]

theorem classesBelowPageSpilled_reachable :
    ((metered .piecewise 0 19 4096).restrict
      (fun _ op => op.Asserted)).Reachable classesBelowPageSpilled := by
  have permitted : ((metered .piecewise 0 19 4096).restrict
      (fun _ op => op.Asserted)).Permitted classesBelowPage
        [.createThreadCache 0 .hot (List.replicate 18 2)] :=
    ⟨⟨⟨fun _ => rfl, by decide +kernel, by decide, by decide +kernel⟩, by decide⟩, trivial⟩
  have start : ((metered .piecewise 0 19 4096).restrict
      (fun _ op => op.Asserted)).Reachable classesBelowPage :=
    Transition.Reachable.start ⟨initial_start (by decide), rfl, fun _ => rfl⟩
  have spilled := start.after permitted
  rw [Transition.run_restrict] at spilled
  exact spilled

/-- A warm-up that spills gives back a block that nobody has been handed. -/
theorem statistics_fail_classesBelowPage :
    ∃ s, (metered .piecewise 0 19 4096).Reachable s ∧
      s.world.bucketStats 0 18 = ⟨0, 0, 0, 1⟩ ∧ ¬ s.Reconciled 0 := by
  have stats : classesBelowPageSpilled.world.bucketStats 0 18 = ⟨0, 0, 0, 1⟩ := by decide +kernel
  refine ⟨classesBelowPageSpilled, classesBelowPageSpilled_reachable.of_restrict, stats, ?_⟩
  intro reconciled
  have wellFormed : WellFormed .piecewise 19 4096 := ⟨⟨by decide, by decide, by decide⟩, by decide⟩
  rcases reachable_sound wellFormed (Partitioning.sized (by decide))
    (reachable_of_metered classesBelowPageSpilled_reachable) with ⟨pool, rest, laidOut, sound⟩
  have count := (SmMalloc.Sound.inv sound).represents.bucketsCount.trans laidOut.bucketsCount
  have balance := reconciled.balance 18 (by rw [count]; decide)
  rw [stats] at balance
  change (0 : Int) - 1 = (classesBelowPageSpilled.clientOffsets 0 18).length at balance
  omega

end Session

end SmMalloc
