import SmMalloc.Foundation.TwoLevel
import SmMalloc.Session.Traffic

namespace SmMalloc

open Foundation

/-!
# A thread's cache is its own

A cache bucket is a stack in two levels, and the calls of its thread are all
that it ever sees: `Alloc` takes from it, and `Free` gives to it.  What the
other threads do in the meantime, and what the central list has, decides only
what a request gets that finds the cache empty.  So two runs in which a thread
makes the same calls serve it the same blocks from its cache.
-/

variable {scheme : Partitioning} {pool : Pool scheme} {m : Machine} {w : World} {s : Session}
variable {a i j M o p t u : Nat} {bytesCount alignment : Nat} {rest out : List Nat}
variable {_bucketsCount _bucketSizeInBytes : Nat} {op : Op}

/-! ## The two levels of a cache bucket -/

namespace TlsPoolBucket

variable (self : TlsPoolBucket)

/-- The addresses of the blocks in both levels. -/
def levels : TwoLevel Nat where
  front := (self.offsetsL0.map (self.pBucketData + ·)).reverse
  back := (self.offsetsL1.map (self.pBucketData + ·)).reverse

theorem length_front : self.levels.front.length = self.numElementsL0 := by
  simp [levels, offsetsL0]

theorem length_back : self.levels.back.length = self.numElementsL1 := by
  simp [levels, offsetsL1]

variable {self} in
theorem ne_zero_of_levels (data : self.pBucketData ≠ 0) (member : p ∈ self.levels.items) :
    p ≠ 0 := by
  rw [TwoLevel.items, List.mem_append, levels, List.mem_reverse, List.mem_reverse, List.mem_map,
    List.mem_map] at member
  rcases member with ⟨o, -, rfl⟩ | ⟨o, -, rfl⟩ <;> omega

theorem stack_pop (stack : Nat -> UInt32) {n : Nat} (positive : 0 < n) :
    (List.range n).map (fun k => (stack k).toNat) =
      (List.range (n - 1)).map (fun k => (stack k).toNat) ++ [(stack (n - 1)).toNat] := by
  have count : n = n - 1 + 1 := by omega
  conv_lhs => rw [count, List.range_succ, List.map_append, List.map_singleton]

theorem front_pop (positive : 0 < self.numElementsL0) : self.levels.front =
    (self.pBucketData + (self.storageL0 (self.numElementsL0 - 1)).toNat) ::
      ({ self with numElementsL0 := self.numElementsL0 - 1 } : TlsPoolBucket).levels.front := by
  rw [levels, offsetsL0, stack_pop self.storageL0 positive, List.map_append, List.reverse_append]
  rfl

theorem back_pop (positive : 0 < self.numElementsL1) : self.levels.back =
    (self.pBucketData + (self.storageL1 (self.numElementsL1 - 1)).toNat) ::
      ({ self with numElementsL1 := self.numElementsL1 - 1 } : TlsPoolBucket).levels.back := by
  rw [levels, offsetsL1, stack_pop self.storageL1 positive, List.map_append, List.reverse_append]
  rfl

theorem front_push (offset : UInt32) :
    ({ self with
        storageL0 := Function.update self.storageL0 self.numElementsL0 offset
        numElementsL0 := self.numElementsL0 + 1 } : TlsPoolBucket).levels.front =
      (self.pBucketData + offset.toNat) :: self.levels.front := by
  simp only [levels, offsetsL0]
  rw [stack_update, List.map_append, List.reverse_append]
  rfl

theorem back_push (offset : UInt32) :
    ({ self with
        storageL1 := Function.update self.storageL1 self.numElementsL1 offset
        numElementsL1 := self.numElementsL1 + 1 } : TlsPoolBucket).levels.back =
      (self.pBucketData + offset.toNat) :: self.levels.back := by
  simp only [levels, offsetsL1]
  rw [stack_update, List.map_append, List.reverse_append]
  rfl

/-- A flush leaves the lower part of level 1. -/
theorem back_flushed {count : Nat} (le : count ≤ self.numElementsL1) :
    ({ self with numElementsL1 := self.numElementsL1 - count } : TlsPoolBucket).levels.back =
      self.levels.back.drop count := by
  have split := self.offsetsL1_split (Nat.sub_le self.numElementsL1 count)
  rw [Nat.sub_sub_self le] at split
  simp only [levels]
  rw [split, List.map_append, List.reverse_append]
  refine (List.drop_left' ?_).symm
  rw [List.length_reverse, List.length_map, List.length_map, List.length_range']

end TlsPoolBucket

/-! ## What a request takes -/

namespace World

theorem allocFromCache_tls (other : j ≠ i) :
    (Allocator.allocFromCache w t i).2.tls t j = w.tls t j := by
  have elsewhere : ¬ (t = t ∧ j = i) := fun same => other same.2
  unfold Allocator.allocFromCache
  simp only
  split
  · rw [setTls_toMachine, Machine.setTls_of_ne _ _ _ _ elsewhere, check_toMachine]
  split
  · rw [setTls_toMachine, Machine.setTls_of_ne _ _ _ _ elsewhere, check_toMachine,
      check_toMachine]
  · rfl

/-- The block on top, if there is one. -/
theorem allocFromCache_levels {roomFront roomBack : Nat} :
    (Allocator.allocFromCache w t i).1 = ((w.tls t i).levels.answer .take).getD 0 ∧
      ((Allocator.allocFromCache w t i).2.tls t i).levels =
        (w.tls t i).levels.next roomFront roomBack .take := by
  obtain ⟨self, isSelf⟩ : ∃ self, self = w.tls t i := ⟨_, rfl⟩
  rw [TwoLevel.answer, TwoLevel.next, TwoLevel.items]
  by_cases level0 : (w.tls t i).numElementsL0 > 0
  · simp only [Allocator.allocFromCache, if_pos level0, setTls_toMachine, Machine.setTls_same]
    rw [TlsPoolBucket.front_pop _ level0]
    exact ⟨rfl, rfl⟩
  have noFront : (w.tls t i).levels.front = [] := by
    apply List.eq_nil_of_length_eq_zero
    rw [TlsPoolBucket.length_front]
    omega
  rw [noFront, List.nil_append]
  by_cases level1 : (w.tls t i).numElementsL1 > 0
  · simp only [Allocator.allocFromCache, if_neg level0, if_pos level1, setTls_toMachine,
      Machine.setTls_same]
    rw [TlsPoolBucket.back_pop _ level1]
    refine ⟨rfl, TwoLevel.ext ?_ rfl⟩
    exact noFront
  · have noBack : (w.tls t i).levels.back = [] := by
      apply List.eq_nil_of_length_eq_zero
      rw [TlsPoolBucket.length_back]
      omega
    simp only [Allocator.allocFromCache, if_neg level0, if_neg level1]
    rw [noBack]
    exact ⟨rfl, TwoLevel.ext noFront noBack⟩

variable (scheme) in
/-- After the thread cache has been asked, no cache changes any more. -/
theorem alloc_cached (w : World) (a t : Nat) (valid : ValidAlignment alignment)
    (nonempty : bytesCount ≠ 0) :
    ∃ counted : World, counted.toMachine = w.toMachine ∧
      let cached := Allocator.allocateFromThreadCache true a t
        (requestIndex scheme bytesCount alignment) counted
      (Allocator.alloc scheme w a t bytesCount alignment).2.tls = cached.2.tls ∧
        (cached.1 ≠ 0 -> (Allocator.alloc scheme w a t bytesCount alignment).1 = cached.1) := by
  rcases allocate_opened scheme true w a t valid nonempty with ⟨counted, same, -, -, opened⟩
  refine ⟨counted, same, ?_⟩
  rw [Allocator.alloc, opened]
  simp only
  split
  next served => exact ⟨rfl, fun _ => rfl⟩
  next missed =>
    refine ⟨?_, fun served => absurd served missed⟩
    split
    · exact allocateFromCentral_tls _ _ _ _ _
    · rw [(allocateFromGeneric_eq _ _ _ _ _ _).2.1]
      exact allocateFromCentral_tls _ _ _ _ _

/-- A request for another class leaves the cache bucket alone. -/
theorem alloc_tls (w : World) (a t : Nat) (valid : ValidAlignment alignment)
    (nonempty : bytesCount ≠ 0) (other : i ≠ requestIndex scheme bytesCount alignment) :
    (Allocator.alloc scheme w a t bytesCount alignment).2.tls t i = w.tls t i := by
  rcases alloc_cached scheme w a t valid nonempty with ⟨counted, same, after, -⟩
  rw [after, ← same]
  unfold Allocator.allocateFromThreadCache
  simp only
  split
  · split
    · rw [countBucket_toMachine, countGlobal_toMachine]
      exact allocFromCache_tls other
    · exact allocFromCache_tls other
  · rfl

/-- A request for the class takes the block on top, and gets it. -/
theorem alloc_levels (w : World) (a t : Nat) (valid : ValidAlignment alignment)
    (nonempty : bytesCount ≠ 0) (here : requestIndex scheme bytesCount alignment = i)
    (inside : i < (w.allocs a).bucketsCount) (data : (w.tls t i).pBucketData ≠ 0)
    (roomFront roomBack : Nat) :
    let before := (w.tls t i).levels
    let r := Allocator.alloc scheme w a t bytesCount alignment
    (r.2.tls t i).levels = before.next roomFront roomBack .take ∧
      forall p, before.answer .take = some p -> r.1 = p := by
  subst here
  intro before r
  rcases alloc_cached scheme w a t valid nonempty with ⟨counted, same, after, served⟩
  obtain ⟨popped, isPopped⟩ : ∃ popped, popped = Allocator.allocFromCache counted t
    (requestIndex scheme bytesCount alignment) := ⟨_, rfl⟩
  have levels : popped.1 = (before.answer .take).getD 0 ∧
      (popped.2.tls t (requestIndex scheme bytesCount alignment)).levels =
        before.next roomFront roomBack .take := by
    have isBefore : before =
        (counted.tls t (requestIndex scheme bytesCount alignment)).levels := by rw [same]
    rw [isPopped, isBefore]
    exact allocFromCache_levels
  unfold Allocator.allocateFromThreadCache at after served
  rw [← same] at inside
  simp only [if_pos inside, ← isPopped] at after served
  constructor
  · rw [after]
    split
    · rw [countBucket_toMachine, countGlobal_toMachine]
      exact levels.2
    · exact levels.2
  · intro p top
    have isTop : popped.1 = p := by rw [levels.1, top, Option.getD_some]
    have nonzero : popped.1 ≠ 0 := by
      rw [isTop]
      exact TlsPoolBucket.ne_zero_of_levels data (List.mem_of_head? top)
    simp only [if_pos nonzero] at served
    exact (served nonzero).trans isTop

end World

/-- A block that is freed is given to the two levels. -/
theorem PoolInv.free_levels (inv : PoolInv pool a w.toMachine ((pool.pData i + o) :: out))
    (block : pool.IsBlock i o) (caching : w.Caching a i t)
    (room : 2 ≤ (w.tls t i).maxElementsCount) :
    ((Allocator.free w a t (pool.pData i + o)).tls t i).levels =
      (w.tls t i).levels.next maxCacheItemsCount (w.tls t i).maxElementsCount
        (.give (pool.pData i + o)) := by
  have attached := (inv.attached t i i caching.pBucket).2
  have levelL1 := caching.bounded.levelL1
  have address : pool.pData i + o = (w.tls t i).pBucketData + (UInt32.ofNat o).toNat := by
    rw [attached.pBucketData, block.toNat_ofNat attached.bound]
  rw [inv.free_cached block caching room, TwoLevel.next, TlsPoolBucket.length_front,
    TlsPoolBucket.length_back]
  by_cases level0 : (w.tls t i).numElementsL0 < maxCacheItemsCount
  · rw [if_pos level0, if_pos level0, Machine.setTls_same, address]
    exact TwoLevel.ext (TlsPoolBucket.front_push _ _) rfl
  rw [if_neg level0, if_neg level0]
  by_cases level1 : (w.tls t i).numElementsL1 < (w.tls t i).maxElementsCount
  · rw [if_pos level1, if_pos level1, Machine.pushL1, Machine.setTls_same, address]
    exact TwoLevel.ext rfl (TlsPoolBucket.back_push _ _)
  · have half : (w.tls t i).maxElementsCount / 2 - 1 + 1 = (w.tls t i).numElementsL1 / 2 := by
      omega
    rw [if_neg level1, if_neg level1, Machine.pushL1, Machine.setTls_same, Machine.flush_slot,
      half, address]
    refine TwoLevel.ext rfl ?_
    rw [TlsPoolBucket.back_push, TlsPoolBucket.back_flushed _ (Nat.div_le_self _ 2)]

/-! ## What a session asks of a cache -/

namespace Session

/-- The blocks that thread `t` caches for bucket `i`. -/
def cacheOf (t i : Nat) (s : Session) : TwoLevel Nat := (s.world.tls t i).levels

/-- What a call by thread `t` asks of its cache for bucket `i`.  A call of `Alloc`
gets its block from there unless the cache is empty. -/
def cacheCall (scheme : Partitioning) (a t i : Nat) (s : Session) :
    Op -> Option (LevelRequest Nat × Option Nat)
  | .alloc u bytesCount alignment =>
      if u = t ∧ bytesCount ≠ 0 ∧ requestIndex scheme bytesCount alignment = i then
        some (.take, if (s.world.tls t i).getElementsCount = 0 then none
          else some (Allocator.alloc scheme s.world a t bytesCount alignment).1)
      else none
  | .free u p =>
      if u = t ∧ kMaxValidAlignment < p ∧ (s.world.allocs a).findBucket p = i then
        some (.give p, none)
      else none
  | _ => none

namespace Sound

theorem cacheStep_alloc (sound : s.Sound pool a rest)
    (capacity : (s.world.tls t i).maxElementsCount = M) (room : 2 ≤ M)
    (valid : ValidAlignment alignment) (nonempty : bytesCount ≠ 0)
    (here : requestIndex scheme bytesCount alignment = i) :
    TwoLevel.Step maxCacheItemsCount M (s.cacheOf t i)
      (.take, if (s.world.tls t i).getElementsCount = 0 then none
        else some (Allocator.alloc scheme s.world a t bytesCount alignment).1)
      ((Session.step scheme a s (.alloc t bytesCount alignment)).cacheOf t i) := by
  have inv := SmMalloc.Sound.inv sound
  have owner := (sound.serving (t := t) (i := i) (by omega)).pBucket
  have attached := (inv.attached t i i owner).2
  have data : (s.world.tls t i).pBucketData ≠ 0 := by
    have readable := pool.pData_readable (i := i)
    rw [attached.pBucketData]
    omega
  have inside : i < (s.world.allocs a).bucketsCount := by
    rw [inv.represents.bucketsCount]
    exact attached.bound
  rcases World.alloc_levels s.world a t valid nonempty here inside data maxCacheItemsCount M with
    ⟨levels, answers⟩
  refine ⟨?_, levels⟩
  have count : (s.cacheOf t i).items.length = (s.world.tls t i).getElementsCount := by
    rw [TwoLevel.items, List.length_append, cacheOf, TlsPoolBucket.length_front,
      TlsPoolBucket.length_back, TlsPoolBucket.getElementsCount, Nat.add_comm]
  cases top : (s.cacheOf t i).items with
  | nil =>
      rw [top, List.length_nil] at count
      rw [if_pos count.symm, TwoLevel.answer, top]
      rfl
  | cons p items =>
      rw [top, List.length_cons] at count
      have answer : (s.cacheOf t i).answer .take = some p := by
        rw [TwoLevel.answer, top]
        rfl
      rw [if_neg (by omega), answer, answers p answer]

theorem cacheStep_free (sound : s.Sound pool a rest)
    (capacity : (s.world.tls t i).maxElementsCount = M) (room : 2 ≤ M)
    (returnable : s.Returnable p) (above : kMaxValidAlignment < p)
    (found : (s.world.allocs a).findBucket p = i) :
    TwoLevel.Step maxCacheItemsCount M (s.cacheOf t i) (.give p, none)
      ((Session.step scheme a s (.free t p)).cacheOf t i) := by
  have member := returnable.resolve_left (Nat.not_le_of_lt above)
  have inv := SmMalloc.Sound.inv sound
  have serving := sound.serving (t := t) (i := i) (by omega)
  have bound := (inv.attached t i i serving.pBucket).2.bound
  rw [inv.represents.findBucket] at found
  rcases inv.block_of_mem member bound found (sound.readable member).2 with ⟨o, block, rfl⟩
  have levels := (sound.returned member).inv.free_levels block
    (SmMalloc.Sound.caching sound serving) (by omega)
  rw [capacity] at levels
  exact ⟨rfl, levels⟩

/-- Nothing else reaches the cache bucket. -/
theorem cacheStep_none (sound : s.Sound pool a rest) (allowed : Allowed scheme a s op)
    (only : OnlyAllocFree t op) (silent : cacheCall scheme a t i s op = none) :
    (Session.step scheme a s op).cacheOf t i = s.cacheOf t i := by
  apply congrArg TlsPoolBucket.levels
  rcases sound.step_cases allowed only with same | ⟨bytesCount, alignment, rfl⟩ | ⟨p, rfl⟩
  · rw [same]
  · change (Allocator.alloc scheme s.world a t bytesCount alignment).2.tls t i = _
    by_cases empty : bytesCount = 0
    · rw [empty, alloc_empty allowed.2]
    · apply World.alloc_tls s.world a t allowed.2 empty
      rintro rfl
      rw [cacheCall, if_pos ⟨rfl, empty, rfl⟩] at silent
      cases silent
  · change (Allocator.free s.world a t p).tls t i = _
    by_cases small : p ≤ kMaxValidAlignment
    · rw [free_empty small]
    · apply World.free_tls
      rintro ⟨-, here⟩
      rw [cacheCall, if_pos ⟨rfl, Nat.lt_of_not_le small, here.symm⟩] at silent
      cases silent

theorem cacheStep_some {call : LevelRequest Nat × Option Nat} (sound : s.Sound pool a rest)
    (capacity : (s.world.tls t i).maxElementsCount = M) (room : 2 ≤ M)
    (allowed : Allowed scheme a s op) (asked : cacheCall scheme a t i s op = some call) :
    TwoLevel.Step maxCacheItemsCount M (s.cacheOf t i) call
      ((Session.step scheme a s op).cacheOf t i) := by
  cases op with
  | alloc u bytesCount alignment =>
      rw [cacheCall] at asked
      split at asked
      next here =>
        rcases here with ⟨rfl, nonempty, isClass⟩
        cases asked
        exact sound.cacheStep_alloc capacity room allowed.2 nonempty isClass
      next => cases asked
  | free u p =>
      rw [cacheCall] at asked
      split at asked
      next here =>
        rcases here with ⟨rfl, above, found⟩
        cases asked
        exact sound.cacheStep_free capacity room allowed above found
      next => cases asked
  | realloc => cases asked
  | createThreadCache => cases asked
  | destroyThreadCache => cases asked
  | write => cases asked

end Sound

variable {ops ops' : List Op}

variable (scheme a) in
/-- What the calls of thread `t` ask of its cache for bucket `i`, and what they get. -/
def cacheCalls (t i _bucketsCount _bucketSizeInBytes : Nat) (s : Session) (ops : List Op) :
    List (LevelRequest Nat × Option Nat) :=
  (system scheme a _bucketsCount _bucketSizeInBytes).trace (cacheCall scheme a t i) s ops

namespace Sound

theorem cache_path (sound : s.Sound pool a rest)
    (capacity : (s.world.tls t i).maxElementsCount = M) (room : 2 ≤ M)
    (permitted : (busy scheme a t _bucketsCount _bucketSizeInBytes).Permitted s ops) :
    Transition.Path (TwoLevel.Step maxCacheItemsCount M) (s.cacheOf t i)
      (cacheCalls scheme a t i _bucketsCount _bucketSizeInBytes s ops)
      (((system scheme a _bucketsCount _bucketSizeInBytes).run s ops).cacheOf t i) := by
  have kept : forall s op, s.Sound pool a rest ∧ (s.world.tls t i).maxElementsCount = M ->
      (busy scheme a t _bucketsCount _bucketSizeInBytes).allowed s op ->
      (Session.step scheme a s op).Sound pool a rest ∧
        ((Session.step scheme a s op).world.tls t i).maxElementsCount = M := by
    rintro s op ⟨sound, capacity⟩ ⟨allowed, only⟩
    exact ⟨sound.step allowed, (sound.step_capacity allowed only).trans capacity⟩
  have path : Transition.Path (TwoLevel.Step maxCacheItemsCount M) (s.cacheOf t i)
      ((busy scheme a t _bucketsCount _bucketSizeInBytes).trace (cacheCall scheme a t i) s ops)
      (((busy scheme a t _bucketsCount _bucketSizeInBytes).run s ops).cacheOf t i) := by
    refine Transition.path_of_steps kept ?_ ⟨sound, capacity⟩ permitted
    rintro s op ⟨sound, capacity⟩ ⟨allowed, only⟩
    cases asked : cacheCall scheme a t i s op with
    | some call => exact sound.cacheStep_some capacity room allowed asked
    | none => exact sound.cacheStep_none allowed only asked
  rw [busy, Transition.trace_restrict, Transition.run_restrict] at path
  exact path

end Sound

/-- What a call asks of the cache, in whatever state. -/
def cacheRequest (pool : Pool scheme) (t i : Nat) : Op -> Option (LevelRequest Nat)
  | .alloc u bytesCount alignment =>
      if u = t ∧ bytesCount ≠ 0 ∧ requestIndex scheme bytesCount alignment = i then some .take
      else none
  | .free u p =>
      if u = t ∧ kMaxValidAlignment < p ∧ pool.findBucket p = i then some (.give p) else none
  | _ => none

theorem cacheRequest_of_other (pool : Pool scheme) (other : op.thread ≠ some t) :
    cacheRequest pool t i op = none := by
  cases op with
  | alloc u bytesCount alignment => exact if_neg (fun here => other (congrArg some here.1))
  | free u p => exact if_neg (fun here => other (congrArg some here.1))
  | _ => rfl

namespace Sound

theorem cacheCall_request (sound : s.Sound pool a rest) (op : Op) :
    (cacheCall scheme a t i s op).map Prod.fst = cacheRequest pool t i op := by
  have represents := SmMalloc.Sound.inv sound |>.represents
  cases op with
  | alloc u bytesCount alignment =>
      simp only [cacheCall, cacheRequest]
      split <;> rfl
  | free u p =>
      simp only [cacheCall, cacheRequest, represents.findBucket]
      split <;> rfl
  | _ => rfl

/-- What is asked in a run depends only on the thread's own calls. -/
theorem cacheCalls_requests (sound : s.Sound pool a rest)
    (permitted : (busy scheme a t _bucketsCount _bucketSizeInBytes).Permitted s ops) :
    (cacheCalls scheme a t i _bucketsCount _bucketSizeInBytes s ops).map Prod.fst =
      (ops.filter (fun op => op.thread = some t)).filterMap (cacheRequest pool t i) := by
  have own : (ops.filter (fun op => op.thread = some t)).filterMap (cacheRequest pool t i) =
      ops.filterMap (cacheRequest pool t i) := by
    rw [List.filterMap_filter]
    congr 1
    funext op
    split
    · rfl
    next other => exact (cacheRequest_of_other pool (by simpa using other)).symm
  rw [own]
  clear own
  induction ops generalizing s with
  | nil => rfl
  | cons op ops ih =>
      have later := ih (sound.step permitted.1.1) permitted.2
      rw [cacheCalls, Transition.trace, List.map_append]
      change _ ++ List.map Prod.fst (cacheCalls scheme a t i _bucketsCount _bucketSizeInBytes
        (Session.step scheme a s op) ops) = _
      rw [later, List.filterMap_cons, ← sound.cacheCall_request]
      cases cacheCall scheme a t i s op <;> rfl

end Sound

/-- A cache bucket is a stack in two levels. -/
theorem cache_refines_levels (integral : scheme ≠ .float)
    (wellFormed : WellFormed scheme _bucketsCount _bucketSizeInBytes)
    (reachable : (system scheme a _bucketsCount _bucketSizeInBytes).Reachable s)
    (capacity : (s.world.tls t i).maxElementsCount = M) (room : 2 ≤ M)
    (permitted : (busy scheme a t _bucketsCount _bucketSizeInBytes).Permitted s ops) :
    Transition.Path (TwoLevel.Step maxCacheItemsCount M) (s.cacheOf t i)
      (cacheCalls scheme a t i _bucketsCount _bucketSizeInBytes s ops)
      (((system scheme a _bucketsCount _bucketSizeInBytes).run s ops).cacheOf t i) := by
  rcases reachable_sound wellFormed (Partitioning.sized integral) reachable with
    ⟨pool, rest, -, sound⟩
  exact sound.cache_path capacity room permitted

theorem onePageFour_reachable : (system .piecewise 0 1 4096).Reachable onePageFour := by
  have created : (system .piecewise 0 1 4096).Permitted onePage
      [.createThreadCache 0 .cold [4]] := by
    exact ⟨⟨fun _ => rfl, by decide, by decide, by decide⟩, trivial⟩
  exact onePage_reachable.after created

theorem onePageFour_capacity : (onePageFour.world.tls 0 0).maxElementsCount = 4 := by
  decide +kernel

/-- Thread 0 frees the first two blocks of the page and asks for three, with
calls of thread 1 in between. -/
def onePageRecycling : List Op :=
  [.alloc 1 16 4, .alloc 1 16 4, .free 0 8192, .free 0 8208, .alloc 1 16 4, .alloc 0 16 4,
    .free 1 8224, .alloc 0 16 4, .alloc 0 16 4]

theorem onePageRecycling_permitted :
    (busy .piecewise 0 0 1 4096).Permitted onePageFour onePageRecycling := by
  have small : 16 < 2 ^ 64 := by decide
  refine ⟨⟨⟨small, valid_four⟩, trivial⟩, ⟨⟨small, valid_four⟩, trivial⟩, ⟨Or.inr ?_, trivial⟩,
    ⟨Or.inr ?_, trivial⟩, ⟨⟨small, valid_four⟩, trivial⟩, ⟨⟨small, valid_four⟩, trivial⟩,
    ⟨Or.inr ?_, trivial⟩, ⟨⟨small, valid_four⟩, trivial⟩, ⟨⟨small, valid_four⟩, trivial⟩,
    trivial⟩ <;> decide +kernel

theorem cache_refines_levels_onePage :
    Transition.Path (TwoLevel.Step maxCacheItemsCount 4) (onePageFour.cacheOf 0 0)
      [(.give 8192, none), (.give 8208, none), (.take, some 8208), (.take, some 8192),
        (.take, none)]
      (((system .piecewise 0 1 4096).run onePageFour onePageRecycling).cacheOf 0 0) := by
  have calls : cacheCalls .piecewise 0 0 0 1 4096 onePageFour onePageRecycling =
      [(.give 8192, none), (.give 8208, none), (.take, some 8208), (.take, some 8192),
        (.take, none)] := by decide +kernel
  rw [← calls]
  exact cache_refines_levels (by decide) (onePage_wellFormed (by decide)) onePageFour_reachable
    onePageFour_capacity (by decide) onePageRecycling_permitted

/-- What a thread gets from its cache, and what it leaves there, depends only on
the thread's own calls. -/
theorem cache_heeds_owner (integral : scheme ≠ .float)
    (wellFormed : WellFormed scheme _bucketsCount _bucketSizeInBytes)
    (reachable : (system scheme a _bucketsCount _bucketSizeInBytes).Reachable s)
    (capacity : (s.world.tls t i).maxElementsCount = M) (room : 2 ≤ M)
    (permitted : (busy scheme a t _bucketsCount _bucketSizeInBytes).Permitted s ops)
    (permitted' : (busy scheme a t _bucketsCount _bucketSizeInBytes).Permitted s ops')
    (same : ops.filter (fun op => op.thread = some t) =
      ops'.filter (fun op => op.thread = some t)) :
    cacheCalls scheme a t i _bucketsCount _bucketSizeInBytes s ops =
        cacheCalls scheme a t i _bucketsCount _bucketSizeInBytes s ops' ∧
      ((system scheme a _bucketsCount _bucketSizeInBytes).run s ops).cacheOf t i =
        ((system scheme a _bucketsCount _bucketSizeInBytes).run s ops').cacheOf t i := by
  rcases reachable_sound wellFormed (Partitioning.sized integral) reachable with
    ⟨pool, rest, -, sound⟩
  rcases TwoLevel.path_determined (sound.cache_path capacity room permitted) with ⟨calls, last⟩
  rcases TwoLevel.path_determined (sound.cache_path capacity room permitted') with
    ⟨calls', last'⟩
  rw [sound.cacheCalls_requests permitted] at calls last
  rw [sound.cacheCalls_requests permitted', ← same] at calls' last'
  exact ⟨calls.trans calls'.symm, last.trans last'.symm⟩

/-- Thread 0 makes the same calls, and thread 1 has a cache. -/
def onePageBeside : List Op :=
  [.createThreadCache 1 .cold [3], .alloc 1 16 4, .alloc 1 16 4, .free 0 8192, .free 0 8208,
    .alloc 0 16 4, .alloc 0 16 4, .alloc 1 16 4, .alloc 0 16 4]

theorem onePageBeside_permitted :
    (busy .piecewise 0 0 1 4096).Permitted onePageFour onePageBeside := by
  have small : 16 < 2 ^ 64 := by decide
  refine ⟨⟨⟨fun _ => rfl, by decide +kernel, by decide, by decide +kernel⟩, Nat.one_ne_zero⟩,
    ⟨⟨small, valid_four⟩, trivial⟩, ⟨⟨small, valid_four⟩, trivial⟩, ⟨Or.inr ?_, trivial⟩,
    ⟨Or.inr ?_, trivial⟩, ⟨⟨small, valid_four⟩, trivial⟩, ⟨⟨small, valid_four⟩, trivial⟩,
    ⟨⟨small, valid_four⟩, trivial⟩, ⟨⟨small, valid_four⟩, trivial⟩, trivial⟩ <;> decide +kernel

theorem cache_heeds_owner_onePage :
    cacheCalls .piecewise 0 0 0 1 4096 onePageFour onePageRecycling =
        cacheCalls .piecewise 0 0 0 1 4096 onePageFour onePageBeside ∧
      ((system .piecewise 0 1 4096).run onePageFour onePageRecycling).cacheOf 0 0 =
        ((system .piecewise 0 1 4096).run onePageFour onePageBeside).cacheOf 0 0 :=
  cache_heeds_owner (by decide) (onePage_wellFormed (by decide)) onePageFour_reachable
    onePageFour_capacity (by decide) onePageRecycling_permitted onePageBeside_permitted rfl

/-- A thread that frees blocks of a class while level 0 has room, and then asks
for as many, gets the same blocks back, the last one first, whatever the other
threads do in between. -/
theorem cache_recycles (integral : scheme ≠ .float)
    (wellFormed : WellFormed scheme _bucketsCount _bucketSizeInBytes)
    (reachable : (system scheme a _bucketsCount _bucketSizeInBytes).Reachable s)
    (capacity : (s.world.tls t i).maxElementsCount = M) (room : 2 ≤ M)
    (permitted : (busy scheme a t _bucketsCount _bucketSizeInBytes).Permitted s ops)
    {blocks : List Nat} {sizes : List (Nat × Nat)}
    (own : ops.filter (fun op => op.thread = some t) =
      blocks.map (.free t) ++ sizes.map (fun size => .alloc t size.1 size.2))
    (freed : forall p, p ∈ blocks ->
      kMaxValidAlignment < p ∧ (s.world.allocs a).findBucket p = i)
    (asked : forall size, size ∈ sizes -> size.1 ≠ 0 ∧ requestIndex scheme size.1 size.2 = i)
    (equal : sizes.length = blocks.length)
    (few : (s.world.tls t i).numElementsL0 + blocks.length ≤ maxCacheItemsCount) :
    cacheCalls scheme a t i _bucketsCount _bucketSizeInBytes s ops =
        blocks.map (fun p => (.give p, none)) ++
          blocks.reverse.map (fun p => (.take, some p)) ∧
      ((system scheme a _bucketsCount _bucketSizeInBytes).run s ops).cacheOf t i =
        s.cacheOf t i := by
  rcases reachable_sound wellFormed (Partitioning.sized integral) reachable with
    ⟨pool, rest, -, sound⟩
  have represents := SmMalloc.Sound.inv sound |>.represents
  have gives : (blocks.map (.free t)).filterMap (cacheRequest pool t i) = blocks.map .give := by
    rw [List.filterMap_map, ← List.filterMap_eq_map]
    apply List.filterMap_congr
    intro p member
    rcases freed p member with ⟨above, found⟩
    rw [represents.findBucket] at found
    exact if_pos ⟨rfl, above, found⟩
  have takes : (sizes.map (fun size => Op.alloc t size.1 size.2)).filterMap
      (cacheRequest pool t i) = List.replicate blocks.length .take := by
    rw [List.filterMap_map, ← equal, ← List.map_const', ← List.filterMap_eq_map]
    apply List.filterMap_congr
    intro size member
    exact if_pos ⟨rfl, asked size member⟩
  have requests := sound.cacheCalls_requests (i := i) permitted
  rw [own, List.filterMap_append, gives, takes] at requests
  apply TwoLevel.path_recycled (sound.cache_path capacity room permitted) _ requests
  rw [cacheOf, TlsPoolBucket.length_front]
  exact few

theorem cache_recycles_onePage :
    let ops := onePageRecycling.dropLast
    cacheCalls .piecewise 0 0 0 1 4096 onePageFour ops =
        [8192, 8208].map (fun p => (.give p, none)) ++
          [8192, 8208].reverse.map (fun p => (.take, some p)) ∧
      ((system .piecewise 0 1 4096).run onePageFour ops).cacheOf 0 0 =
        onePageFour.cacheOf 0 0 := by
  intro ops
  have permitted := ((Transition.permitted_append _ ops [.alloc 0 16 4] _).mp
    onePageRecycling_permitted).1
  have own : ops.filter (fun op => op.thread = some 0) =
      [8192, 8208].map (.free 0) ++ [(16, 4), (16, 4)].map (fun size => .alloc 0 size.1 size.2) :=
    rfl
  exact cache_recycles (by decide) (onePage_wellFormed (by decide)) onePageFour_reachable
    onePageFour_capacity (by decide) permitted own (by decide +kernel) (by decide +kernel)
    (by decide) (by decide +kernel)

end Session

end SmMalloc
