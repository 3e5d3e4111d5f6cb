import SmMalloc.Session.Client
import SmMalloc.Atomic.Together

namespace SmMalloc

open Foundation

/-!
# What the clients see while the steps interleave

The store of blocks that describes a session describes the interleaved steps as
well.  A block appears in the step that takes it from its list, and it is gone
when its client calls `Free`, long before it is on a list again.  No other step
shows, whatever it writes and however often it fails.
-/

variable {scheme : Partitioning} {pool : Pool scheme} {s s' first : AtomicPool} {move : PoolMove}
variable {a i j t o p q bytesCount alignment : Nat} {m : Machine} {rest : List Nat}
variable {_bucketsCount _bucketSizeInBytes : Nat}
variable {inner inner' : Fin pool.bucketsCount -> CountedBucket}

namespace AtomicPool

/-- The blocks that clients hold, with their usable bytes. -/
def view (scheme : Partitioning) (a : Nat) (s : AtomicPool) : BlockStore UInt8 :=
  Session.view scheme a ⟨s.world, s.held⟩

/-- What a step shows to the clients. -/
def shown (s : AtomicPool) (a : Nat) : PoolMove -> Option (StoreCall UInt8)
  | .alloc _ _ _ => none
  | .free _ p => if Allocator.isReadable p = false then none else some (.released p)
  | .proceed t =>
      match s.errand t with
      | .popping request i (.allocRead headValue _) =>
          if (s.world.bucket a i).head = headValue then
            some (.allocated request.bytesCount request.alignment
              ((s.world.bucket a i).pData + headValue.offset.toNat))
          else none
      | .generic request =>
          Session.answered request.bytesCount request.alignment
            (s.world.heap.answer request.bytesCount request.alignment)
      | _ => none
  | .write p k v => some (.written p k v)

/-- What excuses a refusal. -/
def Excuses (s : AtomicPool) : StoreCall UInt8 -> Prop
  | .refused bytesCount alignment => s.world.heap.answer bytesCount alignment = 0
  | _ => False

theorem view_of_mem (member : p ∈ s.held) : s.view scheme a p =
    some (s.world.mem.bytes p (Allocator.getUsableSize scheme s.world a p)) := if_pos member

theorem view_of_not_mem (absent : p ∉ s.held) : s.view scheme a p = none := if_neg absent

namespace Known

/-! ## Blocks that are held -/

/-- The bytes of a block that is held. -/
theorem extent (known : Known pool a rest s inner) (member : p ∈ s.held) :
    Extent pool s.world.toMachine s.held p (Allocator.getUsableSize scheme s.world a p) := by
  have standing := known.fits.standing
  have address := standing.addresses p member
  by_cases inside : pool.findBucket p < pool.bucketsCount
  · rcases known.block member inside with ⟨o, block, isAddress, -⟩
    have usable := standing.represents.getUsableSize_block inside block
    rw [← isAddress] at usable
    rw [usable]
    refine Extent.block _ o inside block isAddress ?_
    exact Pool.mem_offsets.mpr ⟨p, member, rfl, by omega⟩
  · have elsewhere := Nat.le_of_not_lt inside
    rcases standing.region member elsewhere with ⟨size, usable, live, apart⟩
    rw [standing.represents.getUsableSize_elsewhere address.1 elsewhere, usable]
    exact Extent.heap size elsewhere live apart

/-- The blocks that are held do not overlap. -/
theorem separate (known : Known pool a rest s inner) : (s.view scheme a).Separate := by
  intro p contents found q others other
  by_cases own : q = p
  · subst own
    rw [BlockStore.drop_same] at other
    cases other
  rw [BlockStore.drop_of_ne own] at other
  rcases Session.mem_of_view found with ⟨member, rfl⟩
  rcases Session.mem_of_view other with ⟨member', rfl⟩
  rw [Memory.length_bytes, Memory.length_bytes]
  exact (known.extent member).apart known.fits.standing.ledger.apart (known.extent member')
    (fun same => own same.symm)

/-- No block is held twice. -/
theorem fresh (known : Known pool a rest s inner) (member : p ∈ s.held) : p ∉ s.held.erase p := by
  intro again
  have standing := known.fits.standing
  by_cases inside : pool.findBucket p < pool.bucketsCount
  · rcases known.sound ⟨_, inside⟩ with ⟨central, sound⟩
    have kept : (pool.offsets s.held (pool.findBucket p)).Perm
        (pool.offsets (p :: s.held.erase p) (pool.findBucket p)) :=
      Pool.offsets_perm (List.perm_cons_erase member)
    have perm := kept.symm.trans (known.fits.parts ⟨_, inside⟩).held
    have nodup := perm.nodup_iff.mpr (sound.owned.custody.nodup .client)
    have listed : pool.offsets (p :: s.held.erase p) (pool.findBucket p) =
        (p - pool.pData (pool.findBucket p)) ::
          pool.offsets (s.held.erase p) (pool.findBucket p) := by
      simp [Pool.offsets]
    rw [listed] at nodup
    exact (List.nodup_cons.mp nodup).1 (Pool.mem_offsets.mpr ⟨p, again, rfl, rfl⟩)
  · have elsewhere := Nat.le_of_not_lt inside
    have nodup : (pool.elsewhere s.held).Nodup := standing.ledger.custody.nodup HeapHolder.client
    have perm : (pool.elsewhere s.held).Perm (pool.elsewhere (p :: s.held.erase p)) :=
      (List.perm_cons_erase member).filter _
    have listed : pool.elsewhere (p :: s.held.erase p) = p :: pool.elsewhere (s.held.erase p) := by
      simp [Pool.elsewhere, elsewhere]
    rw [perm.nodup_iff, listed] at nodup
    exact (List.nodup_cons.mp nodup).1 (List.mem_filter.mpr ⟨again, decide_eq_true elsewhere⟩)

/-- A block looks the same if nobody has changed its bytes and its region is still there. -/
theorem view_kept (known : Known pool a rest s inner) (known' : Known pool a rest s' inner')
    (member : p ∈ s.held) (still : p ∈ s'.held)
    (mem : forall k, k < Allocator.getUsableSize scheme s.world a p ->
      s'.world.mem (p + k) = s.world.mem (p + k))
    (live : forall size, ⟨p, size⟩ ∈ s.world.heap.live -> ⟨p, size⟩ ∈ s'.world.heap.live) :
    s'.view scheme a p = s.view scheme a p := by
  have usable : Allocator.getUsableSize scheme s'.world a p =
      Allocator.getUsableSize scheme s.world a p :=
    (known'.extent still).size_eq known'.fits.standing.ledger.apart
      ((known.extent member).transfer still (fun _ => live _))
  rw [view_of_mem member, view_of_mem still, usable]
  exact congrArg some (Memory.bytes_shift mem)

/-- A step that changes neither who holds what nor any byte of it. -/
theorem view_same (known : Known pool a rest s inner) (known' : Known pool a rest s' inner')
    (held : s'.held = s.held) (heap : s'.world.heap = s.world.heap)
    (mem : forall p, p ∈ s.held -> forall k, k < Allocator.getUsableSize scheme s.world a p ->
      s'.world.mem (p + k) = s.world.mem (p + k)) :
    s'.view scheme a = s.view scheme a := by
  funext p
  by_cases member : p ∈ s.held
  · apply known.view_kept known' member (held ▸ member) (mem p member)
    rw [heap]
    exact fun _ => id
  · rw [view_of_not_mem member, view_of_not_mem (held ▸ member)]

/-! ## Steps that show -/

/-- A block is handed out. -/
theorem view_granted (known : Known pool a rest s inner) (known' : Known pool a rest s' inner')
    (held : s'.held = p :: s.held) (fresh : p ∉ s.held) (mem : s'.world.mem = s.world.mem)
    (live : forall region, region ∈ s.world.heap.live -> region ∈ s'.world.heap.live)
    (large : bytesCount ≤ Allocator.getUsableSize scheme s'.world a p) (aligned : alignment ∣ p) :
    StoreStep Excuses (s.view scheme a) (s, .allocated bytesCount alignment p)
      (s'.view scheme a) := by
  have granted : s'.view scheme a = (s.view scheme a).put p
      (s'.world.mem.bytes p (Allocator.getUsableSize scheme s'.world a p)) := by
    funext q
    by_cases own : q = p
    · rw [own, BlockStore.put_same]
      exact view_of_mem (held ▸ List.mem_cons_self)
    · rw [BlockStore.put_of_ne own]
      by_cases member : q ∈ s.held
      · apply known.view_kept known' member (held ▸ List.mem_cons_of_mem _ member)
        · intro k _
          rw [mem]
        · exact fun _ => live _
      · rw [view_of_not_mem member, view_of_not_mem]
        rw [held]
        exact fun inside => (List.mem_cons.mp inside).elim own member
  have nothing : s.view scheme a p = none := view_of_not_mem fresh
  have separate := known'.separate p _ (view_of_mem (held ▸ List.mem_cons_self))
  rw [granted, BlockStore.drop_put, BlockStore.drop_of_none nothing] at separate
  rw [granted]
  refine StoreStep.allocated nothing ?_ aligned separate
  rw [Memory.length_bytes]
  exact large

/-- A block is taken back. -/
theorem view_released (known : Known pool a rest s inner) (known' : Known pool a rest s' inner')
    (held : s'.held = s.held.erase p) (member : p ∈ s.held) (mem : s'.world.mem = s.world.mem)
    (live : forall region, region ∈ s.world.heap.live -> region.base ≠ p ->
      region ∈ s'.world.heap.live) :
    StoreStep Excuses (s.view scheme a) (s, .released p) (s'.view scheme a) := by
  have dropped : s'.view scheme a = (s.view scheme a).drop p := by
    funext q
    by_cases own : q = p
    · rw [own, BlockStore.drop_same]
      exact view_of_not_mem (held ▸ known.fresh member)
    · rw [BlockStore.drop_of_ne own]
      by_cases inside : q ∈ s.held
      · apply known.view_kept known' inside
          (held ▸ (List.mem_erase_of_ne own).mpr inside)
        · intro k _
          rw [mem]
        · exact fun _ there => live _ there own
      · rw [view_of_not_mem inside, view_of_not_mem]
        rw [held]
        exact fun still => inside (List.mem_of_mem_erase still)
  rw [dropped]
  exact StoreStep.released (view_of_mem member)

/-- A client writes. -/
theorem view_written (known : Known pool a rest s inner) {k : Nat} (member : p ∈ s.held)
    (inside : k < Allocator.getUsableSize scheme s.world a p) (v : UInt8)
    (known' : Known pool a rest (s.step scheme a (.write p k v)) inner') :
    StoreStep Excuses (s.view scheme a) (s, .written p k v)
      ((s.step scheme a (.write p k v)).view scheme a) := by
  have written : (s.step scheme a (.write p k v)).view scheme a = (s.view scheme a).put p
      ((s.world.mem.bytes p (Allocator.getUsableSize scheme s.world a p)).set k v) := by
    funext q
    by_cases own : q = p
    · subst own
      rw [BlockStore.put_same, view_of_mem (s := s.step scheme a (.write q k v)) member]
      exact congrArg some (Memory.bytes_poke _ _ _ _ _)
    · rw [BlockStore.put_of_ne own]
      by_cases isHeld : q ∈ s.held
      · apply known.view_kept known' isHeld isHeld
        · intro k' small
          have apart := (known.extent member).apart known.fits.standing.ledger.apart
            (known.extent isHeld) (Ne.symm own)
          exact Memory.poke_outside (by omega)
        · exact fun _ => id
      · rw [view_of_not_mem isHeld,
          view_of_not_mem (s := s.step scheme a (.write p k v)) isHeld]
  rw [written]
  refine StoreStep.written (view_of_mem member) ?_
  rwa [Memory.length_bytes]

/-! ## Every step -/

/-- A block that no client holds shares no byte with one that is held. -/
theorem byte_apart (known : Known pool a rest s inner) (bound : j < pool.bucketsCount)
    (block : pool.IsBlock j o) (notHeld : o ∉ (inner ⟨j, bound⟩).bucket.held) (member : p ∈ s.held)
    {k : Nat} (inside : k < Allocator.getUsableSize scheme s.world a p) :
    p + k < pool.pData j + o ∨ pool.pData j + o + pool.elementSize j ≤ p + k := by
  by_contra overlap
  have extent := known.extent member
  generalize Allocator.getUsableSize scheme s.world a p = size at inside extent
  cases extent with
  | block i o' bound' block' address listed =>
      rcases block.byte_unique bound (x := p + k) (by omega) (by omega) block' bound' (by omega)
        (by omega) with ⟨rfl, rfl⟩
      exact notHeld ((known.fits.parts ⟨i, bound⟩).held.mem_iff.mp listed)
  | heap _ elsewhere live apart =>
      have fits := block.end_le bound
      have low := pool.base_le_pData j
      have top := Pool.bucket_end_le bound
      unfold Region.Apart at apart
      simp only at apart
      omega

theorem free_step (known : Known pool a rest s inner) (above : kMaxValidAlignment < p)
    (member : p ∈ s.held) (known' : Known pool a rest (s.beginFree a t p) inner') :
    StoreStep Excuses (s.view scheme a) (s, .released p)
      ((s.beginFree a t p).view scheme a) := by
  have opened : (s.beginFree a t p).held = s.held.erase p ∧
      (s.beginFree a t p).world.mem = s.world.mem ∧
      ((s.beginFree a t p).world.heap = s.world.heap ∨
        (s.beginFree a t p).world.heap = s.world.heap.free p) := by
    simp only [beginFree, if_neg (not_unreadable above)]
    split
    · exact ⟨rfl, rfl, Or.inl rfl⟩
    · exact ⟨rfl, rfl, Or.inr rfl⟩
  rcases opened with ⟨held, mem, heap⟩
  apply known.view_released known' held member mem
  intro region live other
  rcases heap with same | freed
  · rw [same]
    exact live
  · rw [freed]
    exact GenericAllocator.mem_free live other

/-- A block that is taken from a list. -/
theorem pop_step (sized : scheme.Sized) (known : Known pool a rest s inner) {request : Request}
    {headValue nextValue : TaggedIndex}
    (here : s.errand t = .popping request i (.allocRead headValue nextValue))
    (same : (s.world.bucket a i).head = headValue)
    (known' : Known pool a rest (s.proceed scheme a t) inner') :
    StoreStep Excuses (s.view scheme a) (s, .allocated request.bytesCount request.alignment
      ((s.world.bucket a i).pData + headValue.offset.toNat))
      ((s.proceed scheme a t).view scheme a) := by
  have fine := known.fits.standing.errands t
  rw [here] at fine
  rcases fine with ⟨within, -⟩
  have bound := within.bound
  have data := known.data bound
  have inBucket : (inner ⟨i, bound⟩).bucket.point t = .allocRead headValue nextValue := by
    rw [(known.fits.parts ⟨i, bound⟩).point t, here]
    exact if_pos rfl
  have block := known.located ⟨i, bound⟩ t headValue (by rw [inBucket, Point.remembered])
  rcases known.sound ⟨i, bound⟩ with ⟨central, sound⟩
  have isHead : (inner ⟨i, bound⟩).bucket.head = headValue :=
    (known.fits.parts ⟨i, bound⟩).shows.head.trans same
  have listed : headValue.offset.toNat ∈ central := by
    rw [(sound.owned.pop inBucket isHead).1]
    exact List.mem_cons_self
  have nonzero : (s.world.bucket a i).pData + headValue.offset.toNat ≠ 0 := by
    rw [data]
    exact pool.block_ne_zero i _
  have opened : s.proceed scheme a t = { s.become (s.world.toMachine.setBucket a i
      { s.world.bucket a i with head := nextValue }) with
      held := ((s.world.bucket a i).pData + headValue.offset.toNat) :: s.held }.goto t .idle := by
    simp only [proceed, here, PoolBucket.allocStep, if_pos same, popped_returns nonzero]
    rfl
  have suits := within.suitable.fits sized within.fine.positive within.fine.bytesBound
    within.fine.valid (Nat.lt_of_lt_of_le bound pool.count_le)
  have usable := known'.fits.standing.represents.getUsableSize_block bound block
  rw [data] at opened ⊢
  apply known.view_granted known'
  · rw [opened]
    rfl
  · intro member
    have offsets := Pool.mem_offsets.mpr ⟨_, member, Pool.findBucket_block bound block,
      Nat.add_sub_cancel_left _ _⟩
    have holds := (known.fits.parts ⟨i, bound⟩).held.mem_iff.mp offsets
    have inCentral : headValue.offset.toNat ∈ (inner ⟨i, bound⟩).bucket.keeps central .central :=
      listed
    have inClient : headValue.offset.toNat ∈ (inner ⟨i, bound⟩).bucket.keeps central .client :=
      holds
    cases sound.owned.owner_unique inCentral inClient
  · rw [opened]
    rfl
  · rw [opened]
    exact fun _ => id
  · rw [usable]
    exact suits.1
  · exact aligned_block within.fine.valid block suits.2

/-- An answer of the fallback heap. -/
theorem generic_step (known : Known pool a rest s inner) {request : Request}
    (here : s.errand t = .generic request)
    (known' : Known pool a rest (s.proceed scheme a t) inner') :
    match Session.answered request.bytesCount request.alignment
      (s.world.heap.answer request.bytesCount request.alignment) with
    | some call => StoreStep Excuses (s.view scheme a) (s, call)
        ((s.proceed scheme a t).view scheme a)
    | none => (s.proceed scheme a t).view scheme a = s.view scheme a := by
  have standing := known.fits.standing
  have fine := standing.errands t
  rw [here] at fine
  have positive := fine.positive
  have opened : s.proceed scheme a t = { s.become { s.world.toMachine with
        heap := (s.world.heap.alloc request.bytesCount request.alignment).2 } with
      held := if s.world.heap.answer request.bytesCount request.alignment = 0 then s.held
        else s.world.heap.answer request.bytesCount request.alignment :: s.held }.goto t .idle := by
    simp only [proceed, here]
    rfl
  have heap : (s.proceed scheme a t).world.heap =
      (s.world.heap.alloc request.bytesCount request.alignment).2 := by
    rw [opened]
    rfl
  have mem : (s.proceed scheme a t).world.mem = s.world.mem := by
    rw [opened]
    rfl
  have live : forall region, region ∈ s.world.heap.live ->
      region ∈ (s.proceed scheme a t).world.heap.live := by
    rw [heap]
    exact fun _ => GenericAllocator.mem_alloc
  unfold Session.answered
  rw [if_neg (Nat.ne_of_gt positive)]
  by_cases refused : s.world.heap.answer request.bytesCount request.alignment = 0
  · rw [if_pos refused]
    have held : (s.proceed scheme a t).held = s.held := by
      rw [opened]
      exact if_pos refused
    have same : (s.proceed scheme a t).view scheme a = s.view scheme a := by
      funext p
      by_cases member : p ∈ s.held
      · apply known.view_kept known' member (held ▸ member)
        · intro k _
          rw [mem]
        · exact fun _ => live _
      · rw [view_of_not_mem member, view_of_not_mem (held ▸ member)]
    rw [same]
    exact StoreStep.refused refused
  · rw [if_neg refused]
    have held : (s.proceed scheme a t).held =
        s.world.heap.answer request.bytesCount request.alignment :: s.held := by
      rw [opened]
      exact if_neg refused
    have serves := GenericAllocator.serves_of_answer refused
    have elsewhere : pool.bucketsCount ≤ pool.findBucket
        (s.world.heap.answer request.bytesCount request.alignment) :=
      standing.answer_elsewhere positive
    apply known.view_granted known' held _ mem live _ serves.2.2.1
    · intro member
      rcases standing.region member elsewhere with ⟨size, -, there, -⟩
      exact GenericAllocator.answer_fresh refused (List.mem_map.mpr ⟨_, there, rfl⟩)
    · have there : ⟨s.world.heap.answer request.bytesCount request.alignment, request.bytesCount⟩ ∈
          (s.proceed scheme a t).world.heap.live := by
        rw [heap, GenericAllocator.alloc_live refused]
        exact List.mem_cons_self
      have usable := known'.fits.standing.represents.getUsableSize_elsewhere serves.1 elsewhere
      have space := GenericAllocator.getUsableSpace_of_live
        known'.fits.standing.ledger.apart there
      rw [usable, space]

/-- The steps of `FreeInterval` do not show. -/
theorem push_step (known : Known pool a rest s inner) {point : Point}
    (here : s.errand t = .pushing j point)
    (known' : Known pool a rest (s.proceed scheme a t) inner') :
    (s.proceed scheme a t).view scheme a = s.view scheme a := by
  have fine := known.fits.standing.errands t
  rw [here] at fine
  rcases fine with ⟨bound, inFree⟩
  have opened : s.proceed scheme a t =
      (s.become (PoolBucket.freeIntervalStep s.world.toMachine a j point).2).pushed t j
        (PoolBucket.freeIntervalStep s.world.toMachine a j point).1 := by
    simp only [proceed, here]
  have steps := PoolBucket.freeSteps s.world.toMachine a j inFree
  generalize PoolBucket.freeIntervalStep s.world.toMachine a j point = result at opened steps
  rw [opened] at known' ⊢
  obtain ⟨onward, m⟩ := result
  cases steps with
  | draw => exact known.view_same known' rfl rfl (fun _ _ _ _ => rfl)
  | load => exact known.view_same known' rfl rfl (fun _ _ _ _ => rfl)
  | push => exact known.view_same known' rfl rfl (fun _ _ _ _ => rfl)
  | retry => exact known.view_same known' rfl rfl (fun _ _ _ _ => rfl)
  | store chain nodeValue headValue =>
      apply known.view_same known' rfl rfl
      intro p member k inside
      rcases known.sound ⟨j, bound⟩ with ⟨central, sound⟩
      have inBucket : (inner ⟨j, bound⟩).bucket.point t = .freeLoaded chain nodeValue headValue := by
        rw [(known.fits.parts ⟨j, bound⟩).point t, here]
        exact if_pos rfl
      have mine : chain.pTail ∈ (inner ⟨j, bound⟩).bucket.keeps central (.thread t) := by
        rw [AtomicBucket.kept_of_point _ _ inBucket]
        exact chain.pTail_mem
      have notHeld : chain.pTail ∉ (inner ⟨j, bound⟩).bucket.held := by
        intro holds
        have inClient : chain.pTail ∈ (inner ⟨j, bound⟩).bucket.keeps central .client := holds
        cases sound.owned.owner_unique mine inClient
      have block : pool.IsBlock j chain.pTail := sound.owned.custody.supplied _ mine
      have positive := Pool.element_pos bound
      have apart := known.byte_apart bound block notHeld member inside
      have data := known.data bound
      apply TaggedIndex.store_outside
      omega

/-- The steps of `Alloc` that take no block do not show. -/
theorem search_step (known : Known pool a rest s inner) {request : Request} {point : Point}
    (here : s.errand t = .popping request i point) (silent : s.shown a (.proceed t) = none)
    (known' : Known pool a rest (s.proceed scheme a t) inner') :
    (s.proceed scheme a t).view scheme a = s.view scheme a := by
  have fine := known.fits.standing.errands t
  rw [here] at fine
  rcases fine with ⟨-, inAlloc⟩
  have opened : s.proceed scheme a t =
      (s.become (PoolBucket.allocStep s.world.toMachine a i point).2).popped scheme t request i
        (PoolBucket.allocStep s.world.toMachine a i point).1 := by
    simp only [proceed, here]
  have steps := PoolBucket.allocSteps s.world.toMachine a i inAlloc
  generalize PoolBucket.allocStep s.world.toMachine a i point = result at opened steps
  rw [opened] at known' ⊢
  obtain ⟨onward, m⟩ := result
  cases steps with
  | null => exact known.view_same known' rfl rfl (fun _ _ _ _ => rfl)
  | read => exact known.view_same known' rfl rfl (fun _ _ _ _ => rfl)
  | reload => exact known.view_same known' rfl rfl (fun _ _ _ _ => rfl)
  | pop headValue nextValue same =>
      simp only [shown, here, if_pos same] at silent
      cases silent

/-- What a step shows is what it does. -/
theorem shown_step (sized : scheme.Sized) (known : Known pool a rest s inner)
    (known' : Known pool a rest (s.step scheme a move) inner')
    (allowed : s.Allowed scheme a move) :
    match s.shown a move with
    | some call => StoreStep Excuses (s.view scheme a) (s, call)
        ((s.step scheme a move).view scheme a)
    | none => (s.step scheme a move).view scheme a = s.view scheme a := by
  cases move with
  | alloc t bytesCount alignment =>
      change (s.beginAlloc scheme a t bytesCount alignment).view scheme a = s.view scheme a
      unfold beginAlloc
      split <;> rfl
  | free t p =>
      rcases allowed.2.1 with small | member
      · rw [shown, if_pos (isReadable_of_le small)]
        have ignored : s.step scheme a (.free t p) = s := if_pos (isReadable_of_le small)
        rw [ignored]
      · have above := (known.fits.standing.addresses p member).1
        rw [shown, if_neg (not_unreadable above)]
        exact known.free_step above member known'
  | write p k v => exact known.view_written allowed.1 allowed.2 v known'
  | proceed t =>
      cases here : s.errand t with
      | idle =>
          simp only [shown, here, step, proceed]
      | round request j =>
          simp only [shown, here, step, proceed]
          split <;> rfl
      | generic request =>
          have done := known.generic_step here known'
          simp only [shown, here]
          exact done
      | pushing j point =>
          have done := known.push_step here known'
          simp only [shown, here]
          exact done
      | popping request j point =>
          cases shows : s.shown a (.proceed t) with
          | none => exact known.search_step here shows known'
          | some call =>
              cases point with
              | allocRead headValue nextValue =>
                  simp only [shown, here] at shows
                  split at shows
                  next same =>
                    cases shows
                    exact known.pop_step sized here same known'
                  next => cases shows
              | _ =>
                  simp only [shown, here] at shows
                  cases shows

end Known

/-- Every step of every interleaving is a call of the store, or does not show. -/
theorem simulates_store (integral : scheme ≠ .float)
    (wellFormed : WellFormed scheme _bucketsCount _bucketSizeInBytes)
    (twoBlocks : TwoBlocks scheme _bucketsCount _bucketSizeInBytes) :
    Transition.Simulation (system scheme a _bucketsCount _bucketSizeInBytes)
      (StoreStep Excuses) (view scheme a) (Transition.situated (fun s => s.shown a)) := by
  apply Transition.simulation_situated
  intro s move reachable allowed
  have sized := Partitioning.sized integral
  rcases reachable_fits wellFormed sized twoBlocks reachable with
    ⟨pool, rest, inner, roomy, -, reached, fits⟩
  rcases components roomy _bucketsCount _bucketSizeInBytes s inner move reached fits allowed with
    ⟨admits, onward⟩
  have known := roomy.known fits reached
  have known' := roomy.known onward (fun i => (reached i).advance (admits i))
  have done := known.shown_step sized known' allowed
  cases shows : s.shown a move with
  | none =>
      simp only [shows] at done ⊢
      exact done
  | some call =>
      simp only [shows] at done ⊢
      exact done

/-- However the steps of all threads interleave, the clients see a run of the
store, and their blocks never overlap. -/
theorem refines_blocks (integral : scheme ≠ .float)
    (wellFormed : WellFormed scheme _bucketsCount _bucketSizeInBytes)
    (twoBlocks : TwoBlocks scheme _bucketsCount _bucketSizeInBytes)
    (start : (system scheme a _bucketsCount _bucketSizeInBytes).start first)
    {moves : List PoolMove}
    (permitted : (system scheme a _bucketsCount _bucketSizeInBytes).Permitted first moves) :
    let system := system scheme a _bucketsCount _bucketSizeInBytes
    Transition.Path (StoreStep Excuses) BlockStore.empty
        (system.trace (Transition.situated (fun s => s.shown a)) first moves)
        ((system.run first moves).view scheme a) ∧
      ((system.run first moves).view scheme a).Separate := by
  intro system
  have path := (simulates_store integral wellFormed twoBlocks).run
    (Transition.Reachable.start start) permitted
  have nothing : first.view scheme a = BlockStore.empty := by
    rcases start with ⟨w, -, -, rfl⟩
    rfl
  rw [nothing] at path
  exact ⟨path, StoreStep.path_separate path BlockStore.separate_empty⟩

/-- One bucket of one page, and nobody at work. -/
def onePage : AtomicPool := ⟨Session.onePage.world, [], fun _ => .idle, fun _ => 0⟩

theorem onePage_start : (system .piecewise 0 1 4096).start onePage :=
  ⟨World.initial everyOtherPage, World.initial_fresh everyOtherPage 0, by decide, rfl⟩

theorem onePage_twoBlocks : TwoBlocks .piecewise 1 4096 := by
  unfold TwoBlocks
  decide

/-- Threads 0 and 1 read the same head.  Thread 1 fails and tries again while
the block of thread 0 is written to; then that block is given back. -/
def contendedRun : List PoolMove :=
  [.alloc 0 16 4, .alloc 1 16 4, .proceed 0, .proceed 1, .proceed 0, .proceed 1, .proceed 0,
    .proceed 1, .write 8192 0 7, .proceed 1, .proceed 1, .free 0 8192, .proceed 0, .proceed 0,
    .proceed 0, .proceed 0]

theorem contendedRun_permitted : (system .piecewise 0 1 4096).Permitted onePage contendedRun := by
  refine ⟨⟨rfl, by decide, valid_four⟩, ⟨rfl, by decide, valid_four⟩, trivial, trivial, trivial,
    trivial, trivial, trivial, ⟨?_, ?_⟩, trivial, trivial, ⟨?_, Or.inr ?_, ?_⟩, trivial, trivial,
    trivial, trivial, trivial⟩
  · decide +kernel
  · decide +kernel
  · decide +kernel
  · decide +kernel
  · unfold TagLeft
    decide +kernel

theorem refines_blocks_onePage :
    (system .piecewise 0 1 4096).trace (fun s => s.shown 0) onePage contendedRun =
        [.allocated 16 4 8192, .written 8192 0 7, .allocated 16 4 8208, .released 8192] ∧
      Transition.Path (StoreStep Excuses) BlockStore.empty
        ((system .piecewise 0 1 4096).trace (Transition.situated (fun s => s.shown 0)) onePage
          contendedRun)
        (((system .piecewise 0 1 4096).run onePage contendedRun).view .piecewise 0) ∧
      (((system .piecewise 0 1 4096).run onePage contendedRun).view .piecewise 0).Separate :=
  ⟨by decide +kernel, refines_blocks (by decide) (onePage_wellFormed (by decide)) onePage_twoBlocks
    onePage_start contendedRun_permitted⟩

end AtomicPool

end SmMalloc
