import SmMalloc.Pool.FirstFit
import SmMalloc.Pool.Static
import SmMalloc.Session.Run

namespace SmMalloc

open Foundation

/-!
# What a reallocation promises about its result

A block that is large enough stays where it is, whatever alignment is asked
for; every other result comes from a new allocation and is aligned.  A new
allocation may also fail.  Then a block of the pool is left alone, and so is a
block of the fallback heap whose new size class is not in the pool; but a heap
block that is to move into the pool is given back all the same.
-/

variable {scheme : Partitioning} {pool : Pool scheme} {m m' : Machine} {w : World} {s : Session}
variable {a t p r bytesCount alignment : Nat} {rest out : List Nat}
variable {_bucketsCount _bucketSizeInBytes : Nat}

/-! ## Alignment -/

/-- Whatever an allocation returns is aligned as requested. -/
theorem Allocated.aligned (positive : 0 < bytesCount) (bytesBound : bytesCount < 2 ^ 64)
    (valid : ValidAlignment alignment)
    (allocated : Allocated pool a t bytesCount alignment out m r m') (served : r ≠ 0) :
    alignment ∣ r := by
  cases allocated with
  | block j o bound suitable _ taken =>
      have fits := suitable.fits pool.sized positive bytesBound valid
        (Nat.lt_of_lt_of_le bound pool.count_le)
      exact aligned_block valid taken.block fits.2
  | generic => exact (GenericAllocator.serves_of_answer served).2.2.1

/-- `Realloc` leaves the block at `p` where it is. -/
structure Allocator.FitsInPlace (scheme : Partitioning) (alloc : Allocator) (p bytesCount : Nat) :
    Prop where
  readable : kMaxValidAlignment < p
  inside : alloc.findBucket p < alloc.bucketsCount
  fits : bytesCount ≤ scheme.getBucketSizeInBytesByIndex (alloc.findBucket p)

theorem Allocator.FitsInPlace.realloc (fits : (w.allocs a).FitsInPlace scheme p bytesCount)
    (positive : 0 < bytesCount) :
    Allocator.realloc scheme w a t p bytesCount alignment = (p, w) := by
  rw [Allocator.realloc, if_neg (not_unreadable fits.readable), if_neg (Nat.ne_of_gt positive),
    if_pos fits.inside, if_pos fits.fits]

/-- In every session the result of a reallocation is aligned as requested,
unless the block stays where it is and is not aligned so. -/
theorem Session.realloc_aligned_iff (integral : scheme ≠ .float)
    (wellFormed : WellFormed scheme _bucketsCount _bucketSizeInBytes)
    (reachable : (Session.system scheme a _bucketsCount _bucketSizeInBytes).Reachable s)
    (returnable : s.Returnable p) (positive : 0 < bytesCount) (bytesBound : bytesCount < 2 ^ 64)
    (valid : ValidAlignment alignment) :
    ((Allocator.realloc scheme s.world a t p bytesCount alignment).1 ≠ 0 ->
        alignment ∣ (Allocator.realloc scheme s.world a t p bytesCount alignment).1) <->
      ((s.world.allocs a).FitsInPlace scheme p bytesCount -> alignment ∣ p) := by
  rcases Session.reachable_sound wellFormed (Partitioning.sized integral) reachable with
    ⟨pool, rest, -, sound⟩
  have inv := SmMalloc.Sound.inv sound
  have nonempty : bytesCount ≠ 0 := Nat.ne_of_gt positive
  constructor
  · intro aligned fits
    rw [fits.realloc positive] at aligned
    have readable := fits.readable
    exact aligned (by omega)
  · intro aligned served
    by_cases small : p ≤ kMaxValidAlignment
    · rw [realloc_empty small] at served ⊢
      exact (SmMalloc.Sound.request sound t valid nonempty).aligned positive bytesBound valid served
    · have member := returnable.resolve_left small
      have above := Nat.lt_of_not_le small
      have outcome := (sound.returned member).relocation t valid nonempty bytesBound
      generalize (Allocator.realloc scheme s.world a t p bytesCount alignment).2.toMachine = m',
        (Allocator.realloc scheme s.world a t p bytesCount alignment).1 = r at *
      cases outcome with
      | inPlace i o bound block address fits =>
          have found := Pool.findBucket_block bound block
          rw [← address] at found
          refine aligned ⟨above, ?_, ?_⟩
          · rw [inv.represents.findBucket, inv.represents.bucketsCount, found]
            exact bound
          · rw [inv.represents.findBucket, found]
            exact fits
      | refused => exact absurd rfl served
      | lost => exact absurd rfl served
      | fromPool i o _ _ _ _ allocated _ _ => exact allocated.aligned positive bytesBound valid served
      | fromHeap _ allocated _ => exact allocated.aligned positive bytesBound valid served

/-- Thread 0 allocates two blocks of the smallest class. -/
def Session.onePageTwo : Session :=
  (Session.system .piecewise 0 1 4096).run Session.onePage [.alloc 0 16 4, .alloc 0 16 4]

theorem Session.onePageTwo_reachable :
    (Session.system .piecewise 0 1 4096).Reachable Session.onePageTwo :=
  Session.onePage_reachable.after
    ⟨⟨by decide, valid_four⟩, ⟨by decide, valid_four⟩, trivial⟩

theorem Session.realloc_aligned_onePage :
    ((Allocator.realloc .piecewise Session.onePageTwo.world 0 0 8208 16 16).1 ≠ 0 ->
        16 ∣ (Allocator.realloc .piecewise Session.onePageTwo.world 0 0 8208 16 16).1) <->
      ((Session.onePageTwo.world.allocs 0).FitsInPlace .piecewise 8208 16 -> 16 ∣ 8208) :=
  Session.realloc_aligned_iff (by decide) (onePage_wellFormed (by decide))
    Session.onePageTwo_reachable (Or.inr (by decide +kernel)) (by decide) (by decide)
    ⟨4, by decide, rfl⟩

/-- The second block does not lie on a page, and a reallocation that asks for a
page leaves it there. -/
theorem Session.realloc_misaligned_onePage :
    ∃ s, (Session.system .piecewise 0 1 4096).Reachable s ∧ 8208 ∈ s.held ∧
      ValidAlignment 4096 ∧
      (Allocator.realloc .piecewise s.world 0 0 8208 16 4096).1 = 8208 ∧ ¬ 4096 ∣ 8208 :=
  ⟨Session.onePageTwo, Session.onePageTwo_reachable, by decide +kernel, ⟨12, by decide, rfl⟩,
    by decide +kernel, by decide⟩

/-! ## Failure -/

/-- A search that ends with null has asked the fallback heap in vain. -/
theorem Found.null (found : Found scheme m a t bytesCount alignment 0 m')
    (searchable : Searchable scheme m a t bytesCount alignment) :
    ¬ CacheServes scheme m a t bytesCount alignment ∧
      (forall j, ¬ Eligible scheme m a alignment
        (requestIndex scheme bytesCount alignment)
        (searchEnd scheme m a bytesCount alignment) j) ∧
      m.heap.answer bytesCount alignment = 0 ∧
      m' = { m with heap := (m.heap.alloc bytesCount alignment).2 } := by
  generalize isNull : 0 = p at found
  cases found with
  | cached serves taken =>
      rcases taken with ⟨o, slot, address, -, -⟩
      have data := searchable.pBucketData serves
      omega
  | popped j misses first taken =>
      have address := taken.head
      have data := searchable.pData j
        (Nat.lt_of_lt_of_le first.eligible.below (Nat.min_le_right _ _))
      omega
  | generic misses none => exact ⟨misses, none, rfl, rfl⟩

/-- A new block for `p` is found, or the failure to find one is noticed in time. -/
def Allocator.MovesSafely (scheme : Partitioning) (w : World) (a t p bytesCount alignment : Nat) :
    Prop :=
  (w.allocs a).findBucket p < (w.allocs a).bucketsCount ∨
    (w.allocs a).bucketsCount ≤ requestIndex scheme bytesCount alignment ∨
    CacheServes scheme w.toMachine a t bytesCount alignment ∨
    (∃ j, Eligible scheme w.toMachine a alignment (requestIndex scheme bytesCount alignment)
      (searchEnd scheme w.toMachine a bytesCount alignment) j) ∨
    w.heap.answer bytesCount alignment ≠ 0

/-- The reallocation of `p` has changed nothing but that it has asked the
fallback heap in vain: `p` is still held, and memory, lists, caches and the
live blocks of the heap are what they were. -/
structure Session.Intact (s s' : Session) (p bytesCount alignment : Nat) : Prop where
  member : p ∈ s'.held
  held : s'.held = s.held
  events : s'.world.heap.events = .alloc bytesCount alignment 0 :: s.world.heap.events
  live : s'.world.heap.live = s.world.heap.live
  mem : s'.world.mem = s.world.mem
  faults : s'.world.faults = s.world.faults
  allocs : s'.world.allocs = s.world.allocs
  tls : s'.world.tls = s.world.tls

/-- The only thing that has happened is a refused request of the fallback heap. -/
structure Refused (bytesCount alignment : Nat) (w w' : World) : Prop where
  answer : w.heap.answer bytesCount alignment = 0
  machine : w'.toMachine = { w.toMachine with heap := (w.heap.alloc bytesCount alignment).2 }
  faults : w'.faults = w.faults

theorem Allocated.refused_world {w' : World} (limit : bytesCount ≤ scheme.requestLimit)
    (positive : 0 < bytesCount) (valid : ValidAlignment alignment)
    (searchable : Searchable scheme w.toMachine a t bytesCount alignment)
    (isAlloc : w' = (Allocator.alloc scheme w a t bytesCount alignment).2)
    (null : (Allocator.alloc scheme w a t bytesCount alignment).1 = 0) :
    Refused bytesCount alignment w w' := by
  have found := allocate_found true positive limit valid searchable
  have result : (Allocator.allocate scheme true w a t bytesCount alignment).1 = 0 := null
  rw [result] at found
  have nothing := found.null searchable
  rw [isAlloc]
  exact ⟨nothing.2.2.1, nothing.2.2.2, World.allocate_faults true w⟩

/-- A failed reallocation is either harmless or has given a heap block back. -/
theorem PoolInv.realloc_null (inv : PoolInv pool a w.toMachine out) (ready : w.Ready a t)
    (above : kMaxValidAlignment < p) (positive : 0 < bytesCount)
    (limit : bytesCount ≤ scheme.requestLimit) (valid : ValidAlignment alignment)
    (null : (Allocator.realloc scheme w a t p bytesCount alignment).1 = 0) :
    (Allocator.MovesSafely scheme w a t p bytesCount alignment ->
        Refused bytesCount alignment w
          (Allocator.realloc scheme w a t p bytesCount alignment).2) ∧
      (¬ Allocator.MovesSafely scheme w a t p bytesCount alignment ->
        ¬ (Allocator.realloc scheme w a t p bytesCount alignment).2.heap.Live p) := by
  have searchable := inv.searchable ready bytesCount alignment
  by_cases inside : (w.allocs a).findBucket p < (w.allocs a).bucketsCount
  · -- the block is in the pool: the failure of the inner allocation is noticed
    have opened : Allocator.realloc scheme w a t p bytesCount alignment = _ :=
      realloc_inside above (Nat.ne_of_gt positive) inside
    simp only at opened
    have safe : Allocator.MovesSafely scheme w a t p bytesCount alignment := Or.inl inside
    refine ⟨fun _ => ?_, fun lost => absurd safe lost⟩
    split at opened
    next fits =>
      rw [opened] at null
      have zero : p = 0 := null
      omega
    next short =>
      split at opened
      next failed =>
        rw [opened]
        exact Allocated.refused_world limit positive valid searchable rfl failed
      next served =>
        rw [opened] at null
        exact absurd null served
  rcases realloc_outside above (Nat.ne_of_gt positive) valid inside with
    ⟨checked, -, sameMachine, sameFaults, -, opened⟩
  change Allocator.realloc scheme w a t p bytesCount alignment = _ at opened
  by_cases pooled : requestIndex scheme bytesCount alignment < (w.allocs a).bucketsCount
  · -- the block is to move into the pool: the failure is not noticed
    simp only [if_pos pooled] at opened
    rw [opened] at null
    have found := allocate_found true positive limit valid (sameMachine ▸ searchable)
    have result : (Allocator.allocate scheme true checked a t bytesCount alignment).1 = 0 := null
    rw [result, sameMachine] at found
    have nothing := found.null searchable
    have moved : ¬ Allocator.MovesSafely scheme w a t p bytesCount alignment := by
      rintro (pool | heap | cached | ⟨j, eligible⟩ | answered)
      · exact inside pool
      · omega
      · exact nothing.1 cached
      · exact nothing.2.1 j eligible
      · exact answered nothing.2.2.1
    refine ⟨fun safe => absurd safe moved, fun _ => ?_⟩
    rw [opened]
    intro live
    exact ((GenericAllocator.live_free (by omega) p).mp live).2 rfl
  · -- the block is to stay on the heap
    have safe : Allocator.MovesSafely scheme w a t p bytesCount alignment :=
      Or.inr (Or.inl (Nat.le_of_not_lt pooled))
    refine ⟨fun _ => ?_, fun lost => absurd safe lost⟩
    simp only [if_neg pooled] at opened
    have answer : (checked.heap.alloc bytesCount alignment).1 =
        w.heap.answer bytesCount alignment := by rw [sameMachine]; rfl
    by_cases served : w.heap.answer bytesCount alignment = 0
    · simp only [Allocator.genericRealloc, answer, if_pos served] at opened
      rw [opened]
      exact ⟨served, by rw [sameMachine], sameFaults⟩
    · simp only [Allocator.genericRealloc, answer, if_neg served] at opened
      rw [opened] at null
      exact absurd null served

/-- A heap block that is to move into the pool and finds no room has no successor. -/
theorem PoolInv.realloc_lost (inv : PoolInv pool a w.toMachine out) (ready : w.Ready a t)
    (above : kMaxValidAlignment < p) (positive : 0 < bytesCount)
    (limit : bytesCount ≤ scheme.requestLimit) (valid : ValidAlignment alignment)
    (lost : ¬ Allocator.MovesSafely scheme w a t p bytesCount alignment) :
    (Allocator.realloc scheme w a t p bytesCount alignment).1 = 0 := by
  rcases not_or.mp lost with ⟨inside, lost⟩
  rcases not_or.mp lost with ⟨pooled, lost⟩
  rcases not_or.mp lost with ⟨misses, lost⟩
  rcases not_or.mp lost with ⟨none, answered⟩
  rcases realloc_outside above (Nat.ne_of_gt positive) valid inside with
    ⟨checked, -, sameMachine, -, -, opened⟩
  change Allocator.realloc scheme w a t p bytesCount alignment = _ at opened
  simp only [if_pos (Nat.lt_of_not_le pooled)] at opened
  have found := allocate_found true positive limit valid
    (sameMachine ▸ inv.searchable ready bytesCount alignment)
  rw [sameMachine] at found
  have result := (found.of_none misses (fun j eligible => none ⟨j, eligible⟩)).1
  rw [opened]
  exact result.trans (not_not.mp answered)

/-- A held block that is not in the pool is a live block of the fallback heap. -/
theorem Session.Sound.live (sound : s.Sound pool a rest) (member : p ∈ s.held)
    (elsewhere : pool.bucketsCount ≤ pool.findBucket p) : s.world.heap.Live p := by
  rcases SmMalloc.Sound.region (sound.returned member) elsewhere with ⟨size, -, live, -⟩
  exact List.mem_map.mpr ⟨⟨p, size⟩, live, rfl⟩

/-- A request that the fallback heap refuses takes no block away. -/
theorem Refused.live {w' : World} (refused : Refused bytesCount alignment w w') :
    w'.heap.live = w.heap.live := by
  rw [refused.machine]
  exact GenericAllocator.alloc_live_refused refused.answer

theorem Session.Sound.stillThere_refused (sound : s.Sound pool a rest) (member : p ∈ s.held)
    {w' : World} (refused : Refused bytesCount alignment s.world w') :
    Session.stillThere a w' p = true := by
  have represents := (SmMalloc.Sound.inv sound).represents
  rw [Session.stillThere, refused.live, refused.machine, Bool.or_eq_true, decide_eq_true_iff,
    decide_eq_true_iff]
  by_cases inside : (s.world.allocs a).findBucket p < (s.world.allocs a).bucketsCount
  · exact Or.inl inside
  · rw [represents.findBucket, represents.bucketsCount] at inside
    exact Or.inr (sound.live member (Nat.le_of_not_lt inside))

/-- The step of a session that reallocates a held block in vain. -/
theorem Session.realloc_null_step (above : kMaxValidAlignment < p) (positive : 0 < bytesCount)
    (null : (Allocator.realloc scheme s.world a t p bytesCount alignment).1 = 0) :
    Session.step scheme a s (.realloc t p bytesCount alignment) =
      ⟨(Allocator.realloc scheme s.world a t p bytesCount alignment).2,
        if Session.stillThere a (Allocator.realloc scheme s.world a t p bytesCount alignment).2 p
        then s.held else s.held.erase p⟩ := by
  simp only [Session.step, if_neg (not_unreadable above), if_neg (Nat.ne_of_gt positive), null, ne_eq,
    not_true_eq_false, if_false]

/-- In every session a failed reallocation leaves everything intact, unless a
block of the fallback heap was to move into a pool without room for it and the
fallback heap refused as well. -/
theorem Session.realloc_intact_iff (integral : scheme ≠ .float)
    (wellFormed : WellFormed scheme _bucketsCount _bucketSizeInBytes)
    (reachable : (Session.system scheme a _bucketsCount _bucketSizeInBytes).Reachable s)
    (member : p ∈ s.held) (positive : 0 < bytesCount) (bytesBound : bytesCount < 2 ^ 64)
    (valid : ValidAlignment alignment) :
    ((Allocator.realloc scheme s.world a t p bytesCount alignment).1 = 0 ->
        s.Intact (Session.step scheme a s (.realloc t p bytesCount alignment)) p bytesCount
          alignment) <->
      Allocator.MovesSafely scheme s.world a t p bytesCount alignment := by
  rcases Session.reachable_sound wellFormed (Partitioning.sized integral) reachable with
    ⟨pool, rest, -, sound⟩
  have inv := SmMalloc.Sound.inv sound
  have ready := SmMalloc.Sound.ready sound t
  have above := (sound.readable member).1
  have limit := Partitioning.le_requestLimit integral bytesBound
  constructor
  · intro intact
    by_contra lost
    have null := inv.realloc_lost ready above positive limit valid lost
    have unlive := (inv.realloc_null ready above positive limit valid null).2 lost
    have same := (intact null).live
    rw [Session.realloc_null_step above positive null] at same
    rcases not_or.mp lost with ⟨inside, -⟩
    rw [inv.represents.findBucket, inv.represents.bucketsCount] at inside
    refine unlive ?_
    unfold GenericAllocator.Live
    rw [same]
    exact sound.live member (Nat.le_of_not_lt inside)
  · intro safe null
    have refused := (inv.realloc_null ready above positive limit valid null).1 safe
    rw [Session.realloc_null_step above positive null]
    have there := sound.stillThere_refused member refused
    have held : (if Session.stillThere a
        (Allocator.realloc scheme s.world a t p bytesCount alignment).2 p then s.held
        else s.held.erase p) = s.held := if_pos there
    rw [held]
    refine ⟨member, rfl, ?_, refused.live, ?_, refused.faults, ?_, ?_⟩
    · simp only [refused.machine, GenericAllocator.alloc, refused.answer]
    · rw [refused.machine]
    · rw [refused.machine]
    · rw [refused.machine]

theorem Session.realloc_intact_onePage :
    ((Allocator.realloc .piecewise Session.onePageTwo.world 0 0 8208 5000 4).1 = 0 ->
        Session.onePageTwo.Intact
          (Session.step .piecewise 0 Session.onePageTwo (.realloc 0 8208 5000 4)) 8208 5000 4) <->
      Allocator.MovesSafely .piecewise Session.onePageTwo.world 0 0 8208 5000 4 :=
  Session.realloc_intact_iff (by decide) (onePage_wellFormed (by decide))
    Session.onePageTwo_reachable (by decide +kernel) (by decide) (by decide) valid_four

/-! ## A full pool and a full heap -/

/-- A fallback heap that answers twice, with pages far apart. -/
def twoAnswers (k : Nat) : Nat := if k = 0 then 8192 else if k = 1 then 131072 else 0

/-- Classes up to a page in buckets of a page.  A block of a page exhausts its
bucket, and a larger one comes from the fallback heap. -/
def Session.fullPage : Session :=
  (Session.system .piecewise 0 21 4096).run (Session.initial .piecewise twoAnswers 0 21 4096)
    [.alloc 0 4096 4, .alloc 0 5000 4]

theorem Session.fullPage_reachable :
    (Session.system .piecewise 0 21 4096).Reachable Session.fullPage :=
  (Transition.Reachable.start (Session.initial_start (by decide))).after
    ⟨⟨by decide, valid_four⟩, ⟨by decide, valid_four⟩, trivial⟩

/-- The heap block is to move into the exhausted bucket.  The request returns
null, and the block is gone. -/
theorem Session.realloc_loses_fullPage :
    ∃ s, (Session.system .piecewise 0 21 4096).Reachable s ∧ 131072 ∈ s.held ∧
      (Allocator.realloc .piecewise s.world 0 0 131072 4096 4).1 = 0 ∧
      ¬ s.Intact (Session.step .piecewise 0 s (.realloc 0 131072 4096 4)) 131072 4096 4 := by
  refine ⟨Session.fullPage, Session.fullPage_reachable, by decide +kernel, by decide +kernel, ?_⟩
  intro intact
  exact absurd intact.member (by decide +kernel)

end SmMalloc
