import SmMalloc.Foundation.Amortised
import SmMalloc.Session.Contents

namespace SmMalloc

open Foundation

/-!
# Free seldom touches the central list

A block that a thread frees goes into its cache.  Only when both levels are
full, half of level 1 goes back to the central list first, and the freed block
takes a place that has become free.  The number of blocks in level 1 is the
potential: a call of `Free` adds at most one, no call of `Alloc` adds any, and
what the other threads do has no influence on it.  So after a flush it takes
half a level of further calls of `Free` before the next one.
-/

variable {scheme : Partitioning} {pool : Pool scheme} {m m' : Machine} {w : World} {s : Session}
variable {a i M o p t u : Nat} {bytesCount alignment : Nat} {rest out : List Nat}
variable {_bucketsCount _bucketSizeInBytes : Nat}

/-- The thread that makes the call. -/
def Op.thread : Op -> Option Nat
  | .alloc t _ _ => some t
  | .free t _ => some t
  | .realloc t _ _ _ => some t
  | .createThreadCache t _ _ => some t
  | .destroyThreadCache t => some t
  | .write _ _ _ => none

/-! ## One call of `Free` with a cache -/

/-- A block is pushed onto level 1. -/
def Machine.pushL1 (m : Machine) (t i : Nat) (offset : UInt32) : Machine :=
  m.setTls t i { m.tls t i with
    storageL1 := Function.update (m.tls t i).storageL1 (m.tls t i).numElementsL1 offset
    numElementsL1 := (m.tls t i).numElementsL1 + 1 }

theorem Machine.pushL1_offsetsL1 (m : Machine) (t i : Nat) (offset : UInt32) :
    ((m.pushL1 t i offset).tls t i).offsetsL1 = (m.tls t i).offsetsL1 ++ [offset.toNat] := by
  rw [pushL1, Machine.setTls_same]
  exact TlsPoolBucket.stack_update _ _ offset

/-- What a call of `Free` does with a block of a bucket that the thread caches. -/
theorem PoolInv.free_cached (inv : PoolInv pool a w.toMachine ((pool.pData i + o) :: out))
    (block : pool.IsBlock i o) (caching : w.Caching a i t)
    (room : 2 ≤ (w.tls t i).maxElementsCount) :
    (Allocator.free w a t (pool.pData i + o)).toMachine =
      if (w.tls t i).numElementsL0 < maxCacheItemsCount then
        w.toMachine.setTls t i { w.tls t i with
          storageL0 := Function.update (w.tls t i).storageL0 (w.tls t i).numElementsL0
            (UInt32.ofNat o)
          numElementsL0 := (w.tls t i).numElementsL0 + 1 }
      else if (w.tls t i).numElementsL1 < (w.tls t i).maxElementsCount then
        w.toMachine.pushL1 t i (UInt32.ofNat o)
      else
        (w.toMachine.flush a i t ((w.tls t i).maxElementsCount / 2 - 1)).pushL1 t i
          (UInt32.ofNat o) := by
  have bound := (inv.attached t i i caching.pBucket).2.bound
  rcases inv.free_block_eq bound block (t := t) with ⟨counted, sameMachine, -, -, opened⟩
  rw [opened]
  rw [← sameMachine] at inv caching room ⊢
  have levelL1 := caching.bounded.levelL1
  rw [inv.releaseToCache_eq block caching.pBucket (by omega) true]
  simp only [if_true, true_and]
  by_cases level0 : (counted.tls t i).numElementsL0 < maxCacheItemsCount
  · rw [if_pos level0, if_pos level0]
    rfl
  rw [if_neg level0, if_neg level0]
  by_cases level1 : (counted.tls t i).numElementsL1 < (counted.tls t i).maxElementsCount
  · rw [if_pos level1, if_pos level1]
    rw [World.pushL1_eq caching.backed caching.inside, World.setTls_toMachine]
    rfl
  rw [if_neg level1, if_neg level1]
  have half : (counted.tls t i).numElementsL1 >>> 1 = (counted.tls t i).numElementsL1 / 2 :=
    Nat.shiftRight_eq_div_pow _ _
  rcases returnL1_cases ((counted.tls t i).numElementsL1 >>> 1) caching.pBucket with
    ⟨-, nothing⟩ | ⟨n, amount, flushed⟩
  · omega
  · have same : n = (counted.tls t i).maxElementsCount / 2 - 1 := by omega
    rw [flushed, same, World.pushL1_eq, World.setTls_toMachine]
    · rfl
    · exact (caching.flush _).backed
    · exact (caching.flush _).inside

namespace Session

/-- The call is not by thread `t`, unless it is a call of `Alloc` or of `Free`. -/
def OnlyAllocFree (t : Nat) : Op -> Prop
  | .realloc u _ _ _ => u ≠ t
  | .createThreadCache u _ _ => u ≠ t
  | .destroyThreadCache u => u ≠ t
  | _ => True

/-- The operation changes the head or the counter of the central list of bucket `i`. -/
def touches (scheme : Partitioning) (a i : Nat) (s : Session) (op : Op) : Bool :=
  decide ((step scheme a s op).world.bucket a i ≠ s.world.bucket a i)

/-- Whether the operation is a call of `Free` by thread `t` for a block of bucket
`i`, and if so, whether it touches the central list. -/
def freeOf (scheme : Partitioning) (a t i : Nat) (s : Session) : Op -> Option Bool
  | .free u p =>
      if u = t ∧ kMaxValidAlignment < p ∧ (s.world.allocs a).findBucket p = i then
        some (touches scheme a i s (.free u p))
      else none
  | _ => none

/-- Exactly half of a full level 1 goes back to the central list, and the block
at `p` takes the first place that has become free. -/
structure ReturnsHalf (a t i M p : Nat) (s s' : Session) : Prop where
  full : (s.world.tls t i).numElementsL1 = M
  level0 : (s'.world.tls t i).offsetsL0 = (s.world.tls t i).offsetsL0
  lists : forall central, s.CentralList a i central -> ∃ kept returned,
    (s.world.tls t i).offsetsL1 = kept ++ returned ∧ returned.length = M / 2 ∧
      (s'.world.tls t i).offsetsL1 = kept ++ [p - (s.world.bucket a i).pData] ∧
      s'.CentralList a i (returned ++ central)

/-! ## What the other threads do -/

namespace Sound

theorem reallocated_threads {r : Nat}
    (reallocated : Reallocated pool a t p bytesCount alignment out m r m') (other : u ≠ t) :
    m'.tls u = m.tls u := by
  cases reallocated with
  | inPlace => rfl
  | refused allocated => exact allocated.confined.1.threads u other
  | lost elsewhere allocated => exact allocated.confined.1.threads u other
  | fromPool i o bound block address short allocated served released =>
      exact (released.confined.threads u other).trans (allocated.confined.1.threads u other)
  | fromHeap elsewhere allocated served => exact allocated.confined.1.threads u other

theorem alloc_threads (sound : s.Sound pool a rest) (valid : ValidAlignment alignment)
    (other : u ≠ t) :
    (Allocator.alloc scheme s.world a t bytesCount alignment).2.tls u = s.world.tls u := by
  by_cases empty : bytesCount = 0
  · subst empty
    rw [alloc_empty valid]
  · exact (SmMalloc.Sound.request sound t valid empty).confined.1.threads u other

theorem free_threads (sound : s.Sound pool a rest) (returnable : s.Returnable p)
    (other : u ≠ t) : (Allocator.free s.world a t p).tls u = s.world.tls u := by
  rcases returnable with small | member
  · rw [free_empty small]
  · exact ((sound.returned member).free t).2.1.threads u other

theorem realloc_threads (sound : s.Sound pool a rest) (returnable : s.Returnable p)
    (bytesBound : bytesCount < 2 ^ 64) (valid : ValidAlignment alignment) (other : u ≠ t) :
    (Allocator.realloc scheme s.world a t p bytesCount alignment).2.tls u = s.world.tls u := by
  by_cases small : p ≤ kMaxValidAlignment
  · rw [realloc_empty small]
    exact sound.alloc_threads valid other
  have member := returnable.resolve_left small
  have above := Nat.lt_of_not_le small
  by_cases empty : bytesCount = 0
  · rw [empty, realloc_zero above]
    exact sound.free_threads returnable other
  · exact reallocated_threads ((sound.returned member).relocation t valid empty bytesBound) other

/-- A thread changes no cache but its own. -/
theorem step_threads {op : Op} (sound : s.Sound pool a rest) (allowed : Allowed scheme a s op)
    (other : op.thread ≠ some u) : (Session.step scheme a s op).world.tls u = s.world.tls u := by
  have isOther : forall t, op.thread = some t -> u ≠ t := by
    rintro t isThread rfl
    exact other isThread
  cases op with
  | alloc t bytesCount alignment => exact sound.alloc_threads allowed.2 (isOther t rfl)
  | free t p => exact sound.free_threads allowed (isOther t rfl)
  | realloc t p bytesCount alignment =>
      rw [realloc_world]
      exact sound.realloc_threads allowed.1 allowed.2.1 allowed.2.2 (isOther t rfl)
  | createThreadCache t warmupOptions options =>
      exact (sound.created allowed).confined.threads u (isOther t rfl)
  | destroyThreadCache t =>
      exact (SmMalloc.Sound.destroyThreadCache sound t).confined.threads u (isOther t rfl)
  | write p k v => rfl

/-! ## What the thread's own calls do -/

/-- A cache bucket with a capacity is in use. -/
theorem serving (sound : s.Sound pool a rest) (room : 2 ≤ (s.world.tls t i).maxElementsCount) :
    (s.world.tls t i).Serving a i := by
  rcases SmMalloc.Sound.slots sound t i with idle | serving
  · have closed := idle.maxElementsCount
    omega
  · exact serving

/-- A flush returns the upper half of level 1 and makes room for the block. -/
theorem flush_returnsHalf (sound : s.Sound pool a rest) (after : s'.Sound pool a rest)
    (bound : i < pool.bucketsCount) (block : pool.IsBlock i o)
    (owner : (s.world.tls t i).pBucket = some (a, i)) (room : 2 ≤ M)
    (full : (s.world.tls t i).numElementsL1 = M)
    (result : s'.world.toMachine =
      (s.world.toMachine.flush a i t (M / 2 - 1)).pushL1 t i (UInt32.ofNat o)) :
    s.ReturnsHalf a t i M (pool.pData i + o) s' := by
  have inv := SmMalloc.Sound.inv sound
  have data := (inv.attached t i i owner).2.pBucketData
  have bucketData : (s.world.bucket a i).pData = pool.pData i := inv.represents.pData i bound
  have half : M / 2 - 1 + 1 = M / 2 := by omega
  have slot := s.world.toMachine.flush_slot a i t (M / 2 - 1)
  rw [half] at slot
  refine ⟨full, ?_, fun central list => ⟨({ s.world.tls t i with
    numElementsL1 := M - M / 2 } : TlsPoolBucket).offsetsL1,
    (s.world.tls t i).returned (M / 2), ?_, ?_, ?_, ?_⟩⟩
  · rw [result, Machine.pushL1, Machine.setTls_same, slot]
    rfl
  · have upper : M - (M - M / 2) = M / 2 := by omega
    have le : M - M / 2 ≤ (s.world.tls t i).numElementsL1 := by omega
    have split := (s.world.tls t i).offsetsL1_split le
    rw [full, upper] at split
    rw [split, TlsPoolBucket.returned, full]
  · rw [TlsPoolBucket.returned, List.length_map, List.length_range']
  · rw [result, Machine.pushL1_offsetsL1, slot, bucketData, Nat.add_sub_cancel_left,
      block.toNat_ofNat bound, full]
  · have before := (sound.centralList_iff bound central).mp list
    have le : M / 2 - 1 + 1 ≤ (s.world.tls t i).numElementsL1 := by omega
    have linked := (before.flush bound owner data bucketData le).linked
    rw [half] at linked
    have data' : (s'.world.bucket a i).pData = pool.pData i :=
      (SmMalloc.Sound.inv after).represents.pData i bound
    rw [CentralList, data', result]
    exact linked

/-- A call of `Free` either adds a block to the cache and leaves the central
list alone, or it returns half of a full level 1. -/
theorem free_bucket (sound : s.Sound pool a rest) (returnable : s.Returnable p)
    (above : kMaxValidAlignment < p) (found : (s.world.allocs a).findBucket p = i)
    (capacity : (s.world.tls t i).maxElementsCount = M) (room : 2 ≤ M) :
    let s' := Session.step scheme a s (.free t p)
    (s'.world.bucket a i = s.world.bucket a i ∧
        (s'.world.tls t i).numElementsL1 ≤ (s.world.tls t i).numElementsL1 + 1) ∨
      (s'.world.bucket a i ≠ s.world.bucket a i ∧
        (s'.world.tls t i).numElementsL1 = M - M / 2 + 1 ∧ s.ReturnsHalf a t i M p s') := by
  intro s'
  have member := returnable.resolve_left (Nat.not_le_of_lt above)
  have inv := SmMalloc.Sound.inv sound
  have serving := sound.serving (t := t) (i := i) (by omega)
  have caching := SmMalloc.Sound.caching sound serving
  have owner := serving.pBucket
  have bound := (inv.attached t i i owner).2.bound
  rw [inv.represents.findBucket] at found
  rcases inv.block_of_mem member bound found (sound.readable member).2 with ⟨o, block, rfl⟩
  have after : s'.Sound pool a rest := sound.free (Or.inr member)
  have levelL1 := serving.bounded.levelL1
  have outcome := (sound.returned member).inv.free_cached block caching (by omega)
  by_cases level0 : (s.world.tls t i).numElementsL0 < maxCacheItemsCount
  · left
    have result : s'.world.toMachine = _ := outcome.trans (if_pos level0)
    rw [result, Machine.setTls_same]
    exact ⟨rfl, Nat.le_succ _⟩
  rw [if_neg level0] at outcome
  by_cases level1 : (s.world.tls t i).numElementsL1 < (s.world.tls t i).maxElementsCount
  · left
    have result : s'.world.toMachine = _ := outcome.trans (if_pos level1)
    rw [result, Machine.pushL1, Machine.setTls_same]
    exact ⟨rfl, Nat.le_refl _⟩
  · right
    rw [if_neg level1, capacity] at outcome
    have result : s'.world.toMachine = _ := outcome
    have full : (s.world.tls t i).numElementsL1 = M := by omega
    refine ⟨?_, ?_, sound.flush_returnsHalf after bound block owner room full result⟩
    · rw [result]
      intro same
      have tag : (s.world.bucket a i).globalTag + 1 = (s.world.bucket a i).globalTag := by
        have tags := congrArg PoolBucket.globalTag same
        rw [Machine.pushL1, Machine.setTls_bucket, Machine.flush_eq, Machine.setTls_bucket,
          Machine.setBucket_bucket_same] at tags
        exact tags
      have number := congrArg UInt32.toNat tag
      rw [UInt32.toNat_add] at number
      have small := (s.world.bucket a i).globalTag.toNat_lt
      change ((s.world.bucket a i).globalTag.toNat + 1) % 2 ^ 32 = _ at number
      omega
    · rw [result, Machine.pushL1, Machine.setTls_same, Machine.flush_slot]
      change (s.world.tls t i).numElementsL1 - (M / 2 - 1 + 1) + 1 = _
      omega

theorem alloc_popped (s : Session) (t u i : Nat) : (s.world.tls u i).Popped
    ((Session.step scheme a s (.alloc t bytesCount alignment)).world.tls u i) :=
  World.allocate_popped true s.world u i

/-- A step leaves the thread's cache alone, or is one of its calls of `Alloc` and `Free`. -/
theorem step_cases {op : Op} (sound : s.Sound pool a rest) (allowed : Allowed scheme a s op)
    (only : OnlyAllocFree t op) :
    (Session.step scheme a s op).world.tls t = s.world.tls t ∨
      (∃ bytesCount alignment, op = .alloc t bytesCount alignment) ∨ ∃ p, op = .free t p := by
  by_cases other : op.thread ≠ some t
  · exact Or.inl (sound.step_threads allowed other)
  have isThread := not_not.mp other
  right
  cases op with
  | alloc u bytesCount alignment =>
      cases isThread
      exact Or.inl ⟨bytesCount, alignment, rfl⟩
  | free u p =>
      cases isThread
      exact Or.inr ⟨p, rfl⟩
  | realloc u p bytesCount alignment => exact absurd (Option.some.inj isThread) only
  | createThreadCache u warmupOptions options => exact absurd (Option.some.inj isThread) only
  | destroyThreadCache u => exact absurd (Option.some.inj isThread) only
  | write p k v => cases isThread

/-- No call under consideration changes the capacity. -/
theorem step_capacity {op : Op} (sound : s.Sound pool a rest) (allowed : Allowed scheme a s op)
    (only : OnlyAllocFree t op) :
    ((Session.step scheme a s op).world.tls t i).maxElementsCount =
      (s.world.tls t i).maxElementsCount := by
  rcases sound.step_cases allowed only with same | ⟨bytesCount, alignment, rfl⟩ | ⟨p, rfl⟩
  · rw [same]
  · rcases alloc_popped s t t i with ⟨l0, l1, -, -, result⟩
    rw [result]
  · rcases allowed with small | member
    · change ((Allocator.free s.world a t p).tls t i).maxElementsCount = _
      rw [free_empty small]
    · exact (((sound.returned member).free t).2.2.1 i).maxElementsCount

end Sound

/-! ## Whole runs -/

theorem freeOf_some {op : Op} {touched : Bool} (event : freeOf scheme a t i s op = some touched) :
    ∃ p, op = .free t p ∧ kMaxValidAlignment < p ∧ (s.world.allocs a).findBucket p = i ∧
      touches scheme a i s op = touched := by
  cases op with
  | free u p =>
      rw [freeOf] at event
      split at event
      next here =>
        rcases here with ⟨rfl, above, found⟩
        exact ⟨p, rfl, above, found, Option.some.inj event⟩
      next => cases event
  | alloc => cases event
  | realloc => cases event
  | createThreadCache => cases event
  | destroyThreadCache => cases event
  | write => cases event

/-- Only the thread's own calls of `Free` for blocks of the bucket fill level 1. -/
theorem Sound.level1_le {op : Op} (sound : s.Sound pool a rest) (allowed : Allowed scheme a s op)
    (only : OnlyAllocFree t op) (silent : freeOf scheme a t i s op = none) :
    ((Session.step scheme a s op).world.tls t i).numElementsL1 ≤
      (s.world.tls t i).numElementsL1 := by
  rcases sound.step_cases allowed only with same | ⟨bytesCount, alignment, rfl⟩ | ⟨p, rfl⟩
  · rw [same]
  · rcases Sound.alloc_popped s t t i with ⟨l0, l1, -, fewer, result⟩
    rw [result]
    exact fewer
  · apply Nat.le_of_eq
    by_cases small : p ≤ kMaxValidAlignment
    · change ((Allocator.free s.world a t p).tls t i).numElementsL1 = _
      rw [free_empty small]
    · have elsewhere : ¬ (t = t ∧ i = (s.world.allocs a).findBucket p) := by
        rintro ⟨-, here⟩
        rw [freeOf, if_pos ⟨rfl, Nat.lt_of_not_le small, here.symm⟩] at silent
        cases silent
      exact congrArg TlsPoolBucket.numElementsL1 (World.free_tls elsewhere)

variable (scheme a) in
/-- Sessions in which the thread only allocates and frees. -/
def busy (t _bucketsCount _bucketSizeInBytes : Nat) : Transition Session Op :=
  (system scheme a _bucketsCount _bucketSizeInBytes).restrict (fun _ op => OnlyAllocFree t op)

/-- The number of blocks in level 1 pays for the central list. -/
theorem trafficPotential (pool : Pool scheme) (rest : List Nat) (room : 2 ≤ M) :
    (busy scheme a t _bucketsCount _bucketSizeInBytes).Potential
      (fun s => s.Sound pool a rest ∧ (s.world.tls t i).maxElementsCount = M)
      (freeOf scheme a t i) (fun s => (s.world.tls t i).numElementsL1) M (M / 2) where
  kept := by
    rintro s op ⟨sound, capacity⟩ ⟨allowed, only⟩
    exact ⟨sound.step allowed, (sound.step_capacity allowed only).trans capacity⟩
  other := by
    rintro s op ⟨sound, -⟩ ⟨allowed, only⟩ silent
    exact sound.level1_le allowed only silent
  cheap := by
    rintro s op ⟨sound, capacity⟩ ⟨allowed, -⟩ event
    rcases freeOf_some event with ⟨p, rfl, above, found, untouched⟩
    rcases sound.free_bucket allowed above found capacity room with ⟨-, grows⟩ | ⟨changed, -, -⟩
    · exact grows
    · exact absurd changed (of_decide_eq_false untouched)
  expensive := by
    rintro s op ⟨sound, capacity⟩ ⟨allowed, -⟩ event
    rcases freeOf_some event with ⟨p, rfl, above, found, touched⟩
    rcases sound.free_bucket allowed above found capacity room with ⟨same, -⟩ | ⟨-, level1, half⟩
    · exact absurd same (of_decide_eq_true touched)
    · refine ⟨Nat.le_of_eq half.full.symm, ?_⟩
      change ((Session.step scheme a s (.free t p)).world.tls t i).numElementsL1 + M / 2 ≤ M + 1
      omega

variable (scheme a) in
/-- The calls of `Free` by thread `t` for blocks of bucket `i`, and whether they touch
the central list. -/
def frees (t i _bucketsCount _bucketSizeInBytes : Nat) (s : Session) (ops : List Op) : List Bool :=
  (system scheme a _bucketsCount _bucketSizeInBytes).trace (freeOf scheme a t i) s ops

end Session

/-- In every session the flushes of a thread's cache bucket are at least half a
level 1 apart, and each returns exactly half of it. -/
theorem Session.traffic {ops : List Op} (integral : scheme ≠ .float)
    (wellFormed : WellFormed scheme _bucketsCount _bucketSizeInBytes)
    (reachable : (Session.system scheme a _bucketsCount _bucketSizeInBytes).Reachable s)
    (capacity : (s.world.tls t i).maxElementsCount = M) (room : 2 ≤ M)
    (permitted : (Session.busy scheme a t _bucketsCount _bucketSizeInBytes).Permitted s ops) :
    Spaced (M / 2) (Session.frees scheme a t i _bucketsCount _bucketSizeInBytes s ops) ∧
      (forall j k, (((Session.frees scheme a t i _bucketsCount _bucketSizeInBytes s ops).drop
        j).take k).count true ≤ 1 + (k - 1) / (M / 2)) ∧
      forall before p after, ops = before ++ .free t p :: after ->
        let s' := (Session.system scheme a _bucketsCount _bucketSizeInBytes).run s before
        Session.freeOf scheme a t i s' (.free t p) = some true ->
          s'.ReturnsHalf a t i M p (Session.step scheme a s' (.free t p)) := by
  rcases Session.reachable_sound wellFormed (Partitioning.sized integral) reachable with
    ⟨pool, rest, -, sound⟩
  have pays : (Session.busy scheme a t _bucketsCount _bucketSizeInBytes).Potential _ _ _ _ _ :=
    Session.trafficPotential (i := i) pool rest room
  have spaced := pays.spaced ⟨sound, capacity⟩ permitted
  rw [Session.busy, Transition.trace_restrict] at spaced
  refine ⟨spaced, spaced.window_count_le (by omega), ?_⟩
  rintro before p after rfl s' event
  have parts := (Transition.permitted_append _ before (.free t p :: after) s).mp permitted
  have good := pays.good_run ⟨sound, capacity⟩ parts.1
  have allowed := parts.2.1.1
  rw [Session.busy, Transition.run_restrict] at good allowed
  rcases Session.freeOf_some event with ⟨q, same, above, found, touched⟩
  cases same
  rcases good.1.free_bucket allowed above found good.2 room with ⟨same, -⟩ | ⟨-, -, half⟩
  · exact absurd same (of_decide_eq_true touched)
  · exact half

/-! ## A cache for four blocks -/

namespace Session

theorem busy_allocs (u : Nat) (small : bytesCount < 2 ^ 64) (valid : ValidAlignment alignment)
    (n : Nat) : forall s, (busy scheme a t _bucketsCount _bucketSizeInBytes).Permitted s
      (List.replicate n (.alloc u bytesCount alignment)) := by
  induction n with
  | zero => exact fun _ => trivial
  | succ n ih => exact fun s => ⟨⟨⟨small, valid⟩, trivial⟩, ih _⟩

/-- Held blocks may be freed in any order. -/
theorem busy_frees (u : Nat) {blocks : List Nat} : forall {s : Session}, blocks.Nodup ->
    (forall p, p ∈ blocks -> p ∈ s.held) ->
    (busy scheme a t _bucketsCount _bucketSizeInBytes).Permitted s (blocks.map (.free u)) := by
  induction blocks with
  | nil => exact fun _ _ => trivial
  | cons p blocks ih =>
      intro s distinct members
      have tail := List.nodup_cons.mp distinct
      refine ⟨⟨Or.inr (members p List.mem_cons_self), trivial⟩, ih tail.2 ?_⟩
      intro q member
      have other : q ≠ p := by
        rintro rfl
        exact tail.1 member
      exact (List.mem_erase_of_ne other).mpr (members q (List.mem_cons_of_mem p member))

/-- One bucket of one page, and a cache of thread 0 for four blocks. -/
def onePageFour : Session :=
  (system .piecewise 0 1 4096).run onePage [.createThreadCache 0 .cold [4]]

/-- The first `n` blocks of the page. -/
def onePageBlocks (n : Nat) : List Nat := (List.range n).map (fun k => 8192 + 16 * k)

/-- Thread 1 allocates fourteen blocks and thread 0 frees them. -/
def onePageHandover : List Op :=
  List.replicate 14 (.alloc 1 16 4) ++ (onePageBlocks 14).map (.free 0)

/-- The twelfth and the fourteenth call of `Free` find level 1 full. -/
theorem traffic_onePage :
    frees .piecewise 0 0 0 1 4096 onePageFour onePageHandover =
        List.replicate 11 false ++ [true, false, true] ∧
      Spaced (4 / 2) (frees .piecewise 0 0 0 1 4096 onePageFour onePageHandover) := by
  have created : (system .piecewise 0 1 4096).Permitted onePage
      [.createThreadCache 0 .cold [4]] := by
    exact ⟨⟨fun _ => rfl, by decide, by decide, by decide⟩, trivial⟩
  have permitted : (busy .piecewise 0 0 1 4096).Permitted onePageFour onePageHandover := by
    refine (Transition.permitted_append _ _ _ _).mpr ⟨busy_allocs 1 (by decide) valid_four 14 _, ?_⟩
    exact busy_frees 0 (by decide) (by decide +kernel)
  refine ⟨by decide +kernel, ?_⟩
  exact (traffic (by decide) (onePage_wellFormed (by decide)) (onePage_reachable.after created)
    (by decide +kernel) (by decide) permitted).1

end Session

end SmMalloc
