import SmMalloc.Foundation.BlockStore
import SmMalloc.Session.Contents

namespace SmMalloc

open Foundation

/-!
# A session is a store of blocks

Buckets, caches, links and the fallback heap are nobody's business but the
allocator's.  What its clients see is a store of blocks with contents of their
own: `view` is that store, `shown` is what a call has asked for and what it has
answered, and every session, seen through them, is a run of the store.

A reallocation in place keeps the block, whatever alignment is asked for.  A
reallocation that returns null is a refusal if the block is still there, and
otherwise the one accident that the store knows of.  A refusal is excused when
the fallback heap refuses the request as well, and the accident only when the
reallocation could not move the block safely.
-/

variable {scheme : Partitioning} {pool : Pool scheme} {s s' : Session} {op : Op}
variable {a t p q r bytesCount alignment : Nat} {rest : List Nat}
variable {_bucketsCount _bucketSizeInBytes : Nat}

namespace Session

/-- The blocks that clients hold, with their usable bytes. -/
def view (scheme : Partitioning) (a : Nat) (s : Session) : BlockStore UInt8 := fun p =>
  if p ∈ s.held then
    some (s.world.mem.bytes p (Allocator.getUsableSize scheme s.world a p))
  else none

/-- The answer to a request for memory. -/
def answered (bytesCount alignment p : Nat) : Option (StoreCall UInt8) :=
  if bytesCount = 0 then none
  else if p = 0 then some (.refused bytesCount alignment)
  else some (.allocated bytesCount alignment p)

/-- What an operation shows to the clients. -/
def shown (scheme : Partitioning) (a : Nat) (s : Session) : Op -> Option (StoreCall UInt8)
  | .alloc t bytesCount alignment =>
      answered bytesCount alignment (Allocator.alloc scheme s.world a t bytesCount alignment).1
  | .free _ p => if Allocator.isReadable p = false then none else some (.released p)
  | .realloc t p bytesCount alignment =>
      let r := Allocator.realloc scheme s.world a t p bytesCount alignment
      if Allocator.isReadable p = false then answered bytesCount alignment r.1
      else if bytesCount = 0 then some (.released p)
      else if r.1 = 0 then
        if stillThere a r.2 p then some (.refused bytesCount alignment)
        else some (.lost t p bytesCount alignment)
      else if r.1 = p then some (.kept p bytesCount)
      else some (.moved p bytesCount alignment r.1)
  | .createThreadCache _ _ _ => none
  | .destroyThreadCache _ => none
  | .write p k v => some (.written p k v)

/-- What excuses a call that does not do what it was asked for. -/
def Excuses (scheme : Partitioning) (a : Nat) (s : Session) : StoreCall UInt8 -> Prop
  | .refused bytesCount alignment => s.world.heap.answer bytesCount alignment = 0
  | .lost t p bytesCount alignment =>
      ¬ Allocator.MovesSafely scheme s.world a t p bytesCount alignment
  | _ => False

theorem view_of_mem (member : p ∈ s.held) : s.view scheme a p =
    some (s.world.mem.bytes p (Allocator.getUsableSize scheme s.world a p)) := if_pos member

theorem view_of_not_mem (absent : p ∉ s.held) : s.view scheme a p = none := if_neg absent

theorem mem_of_view {contents : List UInt8} (found : s.view scheme a p = some contents) :
    p ∈ s.held ∧
      contents = s.world.mem.bytes p (Allocator.getUsableSize scheme s.world a p) := by
  by_cases member : p ∈ s.held
  · rw [view_of_mem member] at found
    exact ⟨member, (Option.some.inj found).symm⟩
  · rw [view_of_not_mem member] at found
    cases found

/-- A block with the same usable bytes looks the same. -/
theorem SameContents.view (same : s.SameContents scheme a s' p)
    (usable : Allocator.getUsableSize scheme s'.world a p =
      Allocator.getUsableSize scheme s.world a p)
    (member : p ∈ s.held) (still : p ∈ s'.held) : s'.view scheme a p = s.view scheme a p := by
  rw [view_of_mem member, view_of_mem still, usable]
  exact congrArg some (Memory.bytes_shift same)

end Session

namespace Session.Sound

/-- The blocks of the clients do not overlap. -/
theorem separate (sound : s.Sound pool a rest) : (s.view scheme a).Separate := by
  intro p contents found q others other
  by_cases own : q = p
  · subst own
    rw [BlockStore.drop_same] at other
    cases other
  rw [BlockStore.drop_of_ne own] at other
  rcases mem_of_view found with ⟨member, rfl⟩
  rcases mem_of_view other with ⟨member', rfl⟩
  rw [Memory.length_bytes, Memory.length_bytes]
  exact SmMalloc.Sound.extents_apart sound (SmMalloc.Sound.extent sound member)
    (SmMalloc.Sound.extent sound member') (fun same => own same.symm)

/-! ## Usable sizes -/

/-- A block that stays where it is keeps its size while live blocks stay live. -/
theorem usable_of_grown (sound : s.Sound pool a rest) (after : s'.Sound pool a rest)
    (member : p ∈ s.held) (still : p ∈ s'.held)
    (live : forall size, ⟨p, size⟩ ∈ s.world.heap.live -> ⟨p, size⟩ ∈ s'.world.heap.live) :
    Allocator.getUsableSize scheme s'.world a p = Allocator.getUsableSize scheme s.world a p :=
  (SmMalloc.Sound.extent after still).unique after
    ((SmMalloc.Sound.extent sound member).transfer still (fun _ => live _))

/-- It keeps its size while no other blocks become live. -/
theorem usable_of_shrunk (sound : s.Sound pool a rest) (after : s'.Sound pool a rest)
    (member : p ∈ s.held) (still : p ∈ s'.held)
    (live : forall region, region ∈ s'.world.heap.live -> region ∈ s.world.heap.live) :
    Allocator.getUsableSize scheme s'.world a p = Allocator.getUsableSize scheme s.world a p :=
  ((SmMalloc.Sound.extent after still).transfer member (fun _ => live _)).unique sound
    (SmMalloc.Sound.extent sound member)

end Session.Sound

/-- An allocation that returns null has asked the fallback heap in vain. -/
theorem Allocated.answer_of_null {m m' : Machine} {out : List Nat}
    (allocated : Allocated pool a t bytesCount alignment out m r m') (null : r = 0) :
    m.heap.answer bytesCount alignment = 0 := by
  cases allocated with
  | block j o => exact absurd null (pool.block_ne_zero j o)
  | generic => exact null

theorem GenericAllocator.mem_of_free {heap : GenericAllocator} {region : Region}
    (live : region ∈ (heap.free p).live) : region ∈ heap.live := by
  unfold free at live
  split at live
  · exact live
  · exact List.mem_of_mem_filter live

namespace Session.Sound

theorem alloc_live (sound : s.Sound pool a rest) (valid : ValidAlignment alignment) :
    forall region, region ∈ s.world.heap.live ->
      region ∈ (Allocator.alloc scheme s.world a t bytesCount alignment).2.heap.live := by
  intro region member
  by_cases empty : bytesCount = 0
  · subst empty
    rwa [alloc_empty valid]
  · exact (SmMalloc.Sound.request sound t valid empty).live member

theorem free_live (sound : s.Sound pool a rest) (returnable : s.Returnable q) :
    forall region, region ∈ (Allocator.free s.world a t q).heap.live ->
      region ∈ s.world.heap.live := by
  intro region live
  rcases returnable with small | held
  · rwa [free_empty small] at live
  have before := sound.returned held
  have address := sound.readable held
  have inv := SmMalloc.Sound.inv before
  rcases inv.outside_cases address.2 with elsewhere | ⟨i, o, bound, block, rfl⟩
  · rw [inv.free_generic address.1 elsewhere] at live
    exact GenericAllocator.mem_of_free live
  · rw [(inv.free_block bound block ((before.ready t).accepting i)).1.heap] at live
    exact live

/-- A reallocation that returns null changes no live block but the one that it
gives back. -/
theorem realloc_null_live (sound : s.Sound pool a rest) (member : q ∈ s.held)
    (valid : ValidAlignment alignment) (nonempty : bytesCount ≠ 0)
    (bytesBound : bytesCount < 2 ^ 64)
    (null : (Allocator.realloc scheme s.world a t q bytesCount alignment).1 = 0)
    {region : Region} (live : region ∈ s.world.heap.live)
    (stays : region.base = q -> pool.StillThere
      (Allocator.realloc scheme s.world a t q bytesCount alignment).2.toMachine q) :
    region ∈ (Allocator.realloc scheme s.world a t q bytesCount alignment).2.heap.live := by
  have outcome := (sound.returned member).relocation t valid nonempty bytesBound
  have address := sound.readable member
  generalize (Allocator.realloc scheme s.world a t q bytesCount alignment).2.toMachine = m',
    (Allocator.realloc scheme s.world a t q bytesCount alignment).1 = r at *
  cases outcome with
  | inPlace => omega
  | refused allocated => exact allocated.live live
  | @lost m' elsewhere allocated =>
      apply GenericAllocator.mem_free (allocated.live live)
      intro same
      rcases stays same with inside | there
      · omega
      · have readable : q ≠ 0 := by omega
        exact ((GenericAllocator.live_free readable q).mp there).2 rfl
  | fromPool _ _ _ _ _ _ _ served => exact absurd null served
  | fromHeap _ _ served => exact absurd null served

/-- A reallocation that is served carries the contents over. -/
theorem realloc_carried (sound : s.Sound pool a rest) (member : q ∈ s.held)
    (nonempty : bytesCount ≠ 0) (bytesBound : bytesCount < 2 ^ 64)
    (valid : ValidAlignment alignment)
    (served : (Allocator.realloc scheme s.world a t q bytesCount alignment).1 ≠ 0) :
    s.Carried scheme a (Session.step scheme a s (.realloc t q bytesCount alignment)) q
      (Allocator.realloc scheme s.world a t q bytesCount alignment).1 bytesCount := by
  have outcome := (sound.returned member).relocation t valid nonempty bytesBound
  rw [← realloc_world] at outcome
  exact sound.carried (sound.realloc (Or.inr member) bytesBound valid) member
    (Nat.pos_of_ne_zero nonempty) bytesBound valid
    (realloc_held (sound.readable member).1 nonempty served) served outcome

theorem usable_of_machine {w w' : World} (same : w'.toMachine = w.toMachine) (p : Nat) :
    Allocator.getUsableSize scheme w' a p = Allocator.getUsableSize scheme w a p := by
  unfold Allocator.getUsableSize
  rw [same]

/-- A block that is held before and after an operation keeps its size. -/
theorem step_usable (sound : s.Sound pool a rest) (allowed : Allowed scheme a s op)
    (member : p ∈ s.held) (still : p ∈ (Session.step scheme a s op).held) :
    Allocator.getUsableSize scheme (Session.step scheme a s op).world a p =
      Allocator.getUsableSize scheme s.world a p := by
  have after := sound.step allowed
  cases op with
  | alloc t bytesCount alignment =>
      exact sound.usable_of_grown after member still (fun _ => sound.alloc_live allowed.2 _)
  | free t q => exact sound.usable_of_shrunk after member still (sound.free_live allowed)
  | createThreadCache t warmupOptions options =>
      apply sound.usable_of_grown after member still
      intro size live
      change _ ∈ (Allocator.createThreadCache scheme s.world a t warmupOptions options).heap.live
      rw [(sound.created allowed).live]
      exact List.mem_append_right _ live
  | destroyThreadCache t =>
      exact sound.usable_of_shrunk after member still
        (SmMalloc.Sound.destroyThreadCache sound t).live
  | write q k v => exact sound.usable_of_grown after member still (fun _ live => live)
  | realloc t q bytesCount alignment =>
      rcases allowed with ⟨returnable, bytesBound, valid⟩
      by_cases small : q ≤ kMaxValidAlignment
      · apply sound.usable_of_grown after member still
        rw [realloc_world, realloc_empty small]
        exact fun _ => sound.alloc_live valid _
      have held := returnable.resolve_left small
      have above := Nat.lt_of_not_le small
      by_cases empty : bytesCount = 0
      · apply sound.usable_of_shrunk after member still
        rw [realloc_world, empty, realloc_zero above]
        exact sound.free_live (Or.inr held)
      by_cases null : (Allocator.realloc scheme s.world a t q bytesCount alignment).1 = 0
      · apply sound.usable_of_grown after member still
        intro size live
        rw [realloc_world]
        apply sound.realloc_null_live held valid empty bytesBound null live
        rintro rfl
        have represents := (SmMalloc.Sound.inv after).represents
        rw [realloc_world] at represents
        apply (stillThere_iff represents).mp
        by_contra gone
        rw [realloc_null_step above (Nat.pos_of_ne_zero empty) null, if_neg gone] at still
        exact (sound.returned held).fresh still
      have carried := sound.realloc_carried (t := t) held empty bytesBound valid null
      by_cases same : p = q
      · subst same
        by_cases moved : (Allocator.realloc scheme s.world a t p bytesCount alignment).1 = p
        · exact usable_of_machine (carried.stays moved) p
        · exact absurd still (carried.moves moved).2.gone
      · exact (carried.others p member same).1

/-! ## What an operation does to the view -/

section Step

variable (sound : s.Sound pool a rest) (allowed : Allowed scheme a s op)
variable (noWrite : forall q k v, op ≠ .write q k v)
include sound allowed noWrite

/-- No operation but a write changes what a block looks like. -/
theorem step_view (member : p ∈ s.held) (still : p ∈ (Session.step scheme a s op).held) :
    (Session.step scheme a s op).view scheme a p = s.view scheme a p :=
  (sound.step_contents allowed noWrite member still).view
    (sound.step_usable allowed member still) member still

theorem step_view_iff (same : p ∈ (Session.step scheme a s op).held <-> p ∈ s.held) :
    (Session.step scheme a s op).view scheme a p = s.view scheme a p := by
  by_cases member : p ∈ s.held
  · exact sound.step_view allowed noWrite member (same.mpr member)
  · rw [view_of_not_mem member, view_of_not_mem (fun still => member (same.mp still))]

theorem view_same (held : (Session.step scheme a s op).held = s.held) :
    (Session.step scheme a s op).view scheme a = s.view scheme a := by
  funext p
  exact sound.step_view_iff allowed noWrite (by rw [held])

/-- One more block. -/
theorem view_granted (held : (Session.step scheme a s op).held = r :: s.held) :
    (Session.step scheme a s op).view scheme a = (s.view scheme a).put r
      ((Session.step scheme a s op).world.mem.bytes r
        (Allocator.getUsableSize scheme (Session.step scheme a s op).world a r)) := by
  funext p
  by_cases same : p = r
  · subst same
    rw [BlockStore.put_same, view_of_mem (held ▸ List.mem_cons_self)]
  · rw [BlockStore.put_of_ne same]
    apply sound.step_view_iff allowed noWrite
    rw [held, List.mem_cons, or_iff_right same]

/-- One block less. -/
theorem view_erased (member : q ∈ s.held)
    (held : (Session.step scheme a s op).held = s.held.erase q) :
    (Session.step scheme a s op).view scheme a = (s.view scheme a).drop q := by
  funext p
  by_cases same : p = q
  · subst same
    rw [BlockStore.drop_same]
    apply view_of_not_mem
    rw [held]
    exact (sound.returned member).fresh
  · rw [BlockStore.drop_of_ne same]
    apply sound.step_view_iff allowed noWrite
    rw [held, List.mem_erase_of_ne same]

/-- Another block in the place of one. -/
theorem view_replaced (member : q ∈ s.held)
    (held : (Session.step scheme a s op).held = r :: s.held.erase q) (moved : r ≠ q) :
    (Session.step scheme a s op).view scheme a = ((s.view scheme a).drop q).put r
      ((Session.step scheme a s op).world.mem.bytes r
        (Allocator.getUsableSize scheme (Session.step scheme a s op).world a r)) := by
  funext p
  by_cases result : p = r
  · subst result
    rw [BlockStore.put_same, view_of_mem (held ▸ List.mem_cons_self)]
  rw [BlockStore.put_of_ne result]
  by_cases same : p = q
  · subst same
    rw [BlockStore.drop_same]
    apply view_of_not_mem
    rw [held, List.mem_cons, not_or]
    exact ⟨result, (sound.returned member).fresh⟩
  · rw [BlockStore.drop_of_ne same]
    apply sound.step_view_iff allowed noWrite
    rw [held, List.mem_cons, or_iff_right result, List.mem_erase_of_ne same]

end Step

/-- A write changes one byte of one block. -/
theorem view_write {k : Nat} {v : UInt8} (sound : s.Sound pool a rest) (member : p ∈ s.held)
    (inside : k < Allocator.getUsableSize scheme s.world a p) :
    (Session.step scheme a s (.write p k v)).view scheme a = (s.view scheme a).put p
      ((s.world.mem.bytes p (Allocator.getUsableSize scheme s.world a p)).set k v) := by
  funext q
  by_cases same : q = p
  · subst same
    rw [BlockStore.put_same]
    have written : (Session.step scheme a s (.write q k v)).view scheme a q = _ :=
      view_of_mem member
    rw [written]
    exact congrArg some (Memory.bytes_poke s.world.mem q _ k v)
  · rw [BlockStore.put_of_ne same]
    by_cases member' : q ∈ s.held
    · refine SameContents.view ?_ rfl member' member'
      intro j within
      apply Memory.poke_outside
      have apart := SmMalloc.Sound.extents_apart sound (SmMalloc.Sound.extent sound member)
        (SmMalloc.Sound.extent sound member') (fun equal => same equal.symm)
      omega
    · rw [view_of_not_mem member']
      exact view_of_not_mem member'

/-! ## The simulation -/

/-- A request for memory that ends in `r` is one of the store. -/
theorem answered_step (sound : s.Sound pool a rest) (allowed : Allowed scheme a s op)
    (noWrite : forall q k v, op ≠ .write q k v) (valid : ValidAlignment alignment)
    (bytesBound : bytesCount < 2 ^ 64)
    (held : (Session.step scheme a s op).held = grant s.held bytesCount r)
    (outcome : bytesCount ≠ 0 -> Allocated pool a t bytesCount alignment s.held
      s.world.toMachine r (Session.step scheme a s op).world.toMachine) :
    match Session.answered bytesCount alignment r with
    | some call => StoreStep (Excuses scheme a) (s.view scheme a) (s, call)
        ((Session.step scheme a s op).view scheme a)
    | none => (Session.step scheme a s op).view scheme a = s.view scheme a := by
  have after := sound.step allowed
  unfold Session.answered
  split_ifs with empty refused
  · exact sound.view_same allowed noWrite (held.trans (if_pos (Or.inl empty)))
  · rw [sound.view_same allowed noWrite (held.trans (if_pos (Or.inr refused)))]
    exact StoreStep.refused ((outcome empty).answer_of_null refused)
  · have granted : (Session.step scheme a s op).held = r :: s.held :=
      held.trans (if_neg (not_or.mpr ⟨empty, refused⟩))
    have member : r ∈ (Session.step scheme a s op).held := granted ▸ List.mem_cons_self
    have positive := Nat.pos_of_ne_zero empty
    have allocated := outcome empty
    have final : SmMalloc.Sound pool a rest (Session.step scheme a s op).world.toMachine
        (r :: s.held) := by
      rw [← granted]
      exact after
    have fresh : s.view scheme a r = none := view_of_not_mem final.fresh
    have separate := after.separate r _ (view_of_mem member)
    rw [sound.view_granted allowed noWrite granted] at separate ⊢
    rw [BlockStore.drop_put, BlockStore.drop_of_none fresh] at separate
    refine StoreStep.allocated fresh ?_
      (allocated.aligned positive bytesBound valid refused) separate
    rw [Memory.length_bytes]
    rcases SmMalloc.Sound.allocated_extent sound positive bytesBound valid allocated refused with
      ⟨size, large, result⟩
    rwa [(SmMalloc.Sound.extent final List.mem_cons_self).unique final result]

/-- A release of a block is one of the store. -/
theorem released_step (sound : s.Sound pool a rest) (allowed : Allowed scheme a s op)
    (noWrite : forall q k v, op ≠ .write q k v) (member : q ∈ s.held)
    (held : (Session.step scheme a s op).held = s.held.erase q) :
    StoreStep (Excuses scheme a) (s.view scheme a) (s, .released q)
      ((Session.step scheme a s op).view scheme a) := by
  rw [sound.view_erased allowed noWrite member held]
  exact StoreStep.released (view_of_mem member)

end Session.Sound

/-- A block that moves is aligned as requested. -/
theorem Reallocated.aligned {m m' : Machine} {out : List Nat} (positive : 0 < bytesCount)
    (bytesBound : bytesCount < 2 ^ 64) (valid : ValidAlignment alignment)
    (reallocated : Reallocated pool a t p bytesCount alignment out m r m') (served : r ≠ 0)
    (moved : r ≠ p) : alignment ∣ r := by
  cases reallocated with
  | inPlace => exact absurd rfl moved
  | refused => exact absurd rfl served
  | lost => exact absurd rfl served
  | fromPool _ _ _ _ _ _ allocated _ _ => exact allocated.aligned positive bytesBound valid served
  | fromHeap _ allocated _ => exact allocated.aligned positive bytesBound valid served

namespace Session.Sound

/-- A reallocation that is served keeps the block or moves it. -/
theorem served_step (sound : s.Sound pool a rest)
    (allowed : Allowed scheme a s (.realloc t q bytesCount alignment)) (member : q ∈ s.held)
    (nonempty : bytesCount ≠ 0)
    (served : (Allocator.realloc scheme s.world a t q bytesCount alignment).1 ≠ 0) :
    StoreStep (Excuses scheme a) (s.view scheme a)
      (s, if (Allocator.realloc scheme s.world a t q bytesCount alignment).1 = q
        then .kept q bytesCount
        else .moved q bytesCount alignment
          (Allocator.realloc scheme s.world a t q bytesCount alignment).1)
      ((Session.step scheme a s (.realloc t q bytesCount alignment)).view scheme a) := by
  have bytesBound := allowed.2.1
  have valid := allowed.2.2
  have after := sound.step allowed
  have carried := sound.realloc_carried (t := t) member nonempty bytesBound valid served
  have outcome := (sound.returned member).relocation t valid nonempty bytesBound
  have noWrite : forall p k v, Op.realloc t q bytesCount alignment ≠ .write p k v := by
    intro p k v impossible
    cases impossible
  obtain ⟨r, isResult⟩ : ∃ r, r = (Allocator.realloc scheme s.world a t q bytesCount alignment).1 :=
    ⟨_, rfl⟩
  rw [← isResult] at served carried outcome ⊢
  split_ifs with stays
  · have same : (Session.step scheme a s (.realloc t q bytesCount alignment)).view scheme a =
        s.view scheme a := by
      funext p
      apply sound.step_view_iff allowed noWrite
      rw [carried.held, stays]
      exact (List.perm_cons_erase member).mem_iff.symm
    have large := carried.large
    rw [usable_of_machine (carried.stays stays), stays] at large
    rw [same]
    refine StoreStep.kept (view_of_mem member) ?_
    rwa [Memory.length_bytes]
  · have fresh : s.view scheme a r = none := view_of_not_mem (carried.moves stays).1
    have result : r ∈ (Session.step scheme a s (.realloc t q bytesCount alignment)).held :=
      carried.held ▸ List.mem_cons_self
    have separate := after.separate r _ (view_of_mem result)
    rw [sound.view_replaced allowed noWrite member carried.held stays] at separate ⊢
    rw [BlockStore.drop_put, BlockStore.drop_of_none
      ((BlockStore.drop_of_ne stays).trans fresh)] at separate
    have aligned := outcome.aligned (Nat.pos_of_ne_zero nonempty) bytesBound valid served stays
    refine StoreStep.moved (view_of_mem member) fresh ?_ aligned separate ?_
    · rw [Memory.length_bytes]
      exact carried.large
    · have large := carried.large
      rw [Memory.length_bytes, Memory.take_bytes _ (by omega), Memory.take_bytes _ (by omega)]
      exact Memory.bytes_shift carried.contents

/-- A reallocation that returns null is a refusal, or the block is lost. -/
theorem null_step (sound : s.Sound pool a rest) (integral : scheme ≠ .float)
    (allowed : Allowed scheme a s (.realloc t q bytesCount alignment)) (member : q ∈ s.held)
    (nonempty : bytesCount ≠ 0)
    (null : (Allocator.realloc scheme s.world a t q bytesCount alignment).1 = 0) :
    StoreStep (Excuses scheme a) (s.view scheme a)
      (s, if stillThere a (Allocator.realloc scheme s.world a t q bytesCount alignment).2 q
        then .refused bytesCount alignment else .lost t q bytesCount alignment)
      ((Session.step scheme a s (.realloc t q bytesCount alignment)).view scheme a) := by
  have noWrite : forall p k v, Op.realloc t q bytesCount alignment ≠ .write p k v := by
    intro p k v impossible
    cases impossible
  have above := (sound.readable member).1
  have positive := Nat.pos_of_ne_zero nonempty
  have step : Session.step scheme a s (.realloc t q bytesCount alignment) = _ :=
    realloc_null_step above positive null
  have held := congrArg Session.held step
  have harmless : Allocator.MovesSafely scheme s.world a t q bytesCount alignment ->
      Refused bytesCount alignment s.world
        (Allocator.realloc scheme s.world a t q bytesCount alignment).2 :=
    ((SmMalloc.Sound.inv sound).realloc_null (SmMalloc.Sound.ready sound t) above positive
      (Partitioning.le_requestLimit integral allowed.2.1) allowed.2.2 null).1
  split_ifs at held ⊢ with there
  · rw [sound.view_same allowed noWrite held]
    apply StoreStep.refused
    by_cases safe : Allocator.MovesSafely scheme s.world a t q bytesCount alignment
    · exact (harmless safe).answer
    · by_contra answered
      exact safe (Or.inr (Or.inr (Or.inr (Or.inr answered))))
  · rw [sound.view_erased allowed noWrite member held]
    refine StoreStep.lost (view_of_mem member) (fun safe => there ?_)
    exact sound.stillThere_refused member (harmless safe)

theorem realloc_step (sound : s.Sound pool a rest) (integral : scheme ≠ .float)
    (allowed : Allowed scheme a s (.realloc t q bytesCount alignment)) :
    match s.shown scheme a (.realloc t q bytesCount alignment) with
    | some call => StoreStep (Excuses scheme a) (s.view scheme a) (s, call)
        ((Session.step scheme a s (.realloc t q bytesCount alignment)).view scheme a)
    | none => (Session.step scheme a s (.realloc t q bytesCount alignment)).view scheme a =
        s.view scheme a := by
  have noWrite : forall p k v, Op.realloc t q bytesCount alignment ≠ .write p k v := by
    intro p k v impossible
    cases impossible
  unfold shown
  simp only
  by_cases small : q ≤ kMaxValidAlignment
  · rw [if_pos (isReadable_of_le small)]
    apply sound.answered_step allowed noWrite allowed.2.2 allowed.2.1
    · rw [step_realloc rfl, if_pos (isReadable_of_le small)]
    · intro nonempty
      rw [realloc_world, realloc_empty small]
      exact SmMalloc.Sound.request sound t allowed.2.2 nonempty
  have member := allowed.1.resolve_left small
  have above := Nat.lt_of_not_le small
  rw [if_neg (not_unreadable above)]
  by_cases empty : bytesCount = 0
  · rw [if_pos empty]
    apply sound.released_step allowed noWrite member
    rw [step_realloc rfl, if_neg (not_unreadable above), if_pos empty]
  rw [if_neg empty]
  by_cases null : (Allocator.realloc scheme s.world a t q bytesCount alignment).1 = 0
  · rw [if_pos null]
    have done := sound.null_step integral allowed member empty null
    split_ifs at done ⊢ <;> exact done
  · rw [if_neg null]
    have done := sound.served_step allowed member empty null
    split_ifs at done ⊢ <;> exact done

/-- What an operation shows is what it does. -/
theorem shown_step (sound : s.Sound pool a rest) (integral : scheme ≠ .float)
    (allowed : Allowed scheme a s op) :
    match s.shown scheme a op with
    | some call => StoreStep (Excuses scheme a) (s.view scheme a) (s, call)
        ((Session.step scheme a s op).view scheme a)
    | none => (Session.step scheme a s op).view scheme a = s.view scheme a := by
  cases op with
  | alloc t bytesCount alignment =>
      exact sound.answered_step allowed (fun _ _ _ => by rintro ⟨⟩) allowed.2 allowed.1 rfl
        (fun nonempty => SmMalloc.Sound.request sound t allowed.2 nonempty)
  | free t p =>
      by_cases small : p ≤ kMaxValidAlignment
      · rw [shown, if_pos (isReadable_of_le small)]
        exact sound.view_same allowed (fun _ _ _ => by rintro ⟨⟩) (sound.erase_empty small)
      · rw [shown, if_neg (not_unreadable (Nat.lt_of_not_le small))]
        exact sound.released_step allowed (fun _ _ _ => by rintro ⟨⟩)
          (allowed.resolve_left small) rfl
  | realloc t p bytesCount alignment => exact sound.realloc_step integral allowed
  | createThreadCache t warmupOptions options =>
      exact sound.view_same allowed (fun _ _ _ => by rintro ⟨⟩) rfl
  | destroyThreadCache t => exact sound.view_same allowed (fun _ _ _ => by rintro ⟨⟩) rfl
  | write p k v =>
      rcases allowed with ⟨member, inside⟩
      change StoreStep (Excuses scheme a) (s.view scheme a) (s, .written p k v) _
      rw [sound.view_write member inside]
      refine StoreStep.written (view_of_mem member) ?_
      rwa [Memory.length_bytes]

end Session.Sound

/-- Every operation of every session is a call of the store, or does not show. -/
theorem Session.simulates_store (integral : scheme ≠ .float)
    (wellFormed : WellFormed scheme _bucketsCount _bucketSizeInBytes) :
    Transition.Simulation (Session.system scheme a _bucketsCount _bucketSizeInBytes)
      (StoreStep (Session.Excuses scheme a)) (Session.view scheme a)
      (Transition.situated (Session.shown scheme a)) := by
  apply Transition.simulation_situated
  intro s op reachable allowed
  rcases Session.reachable_sound wellFormed (Partitioning.sized integral) reachable with
    ⟨pool, rest, -, sound⟩
  have done := sound.shown_step integral allowed
  cases shows : Session.shown scheme a s op with
  | none =>
      rw [shows] at done
      exact done
  | some call =>
      rw [shows] at done
      exact done

/-- Every session, seen by its clients, is a run of the store that begins with
nothing, and its blocks never overlap.  Refusals and lost blocks are excused by
the state of the session in which they occur. -/
theorem Session.refines_store (integral : scheme ≠ .float)
    (wellFormed : WellFormed scheme _bucketsCount _bucketSizeInBytes)
    (start : (Session.system scheme a _bucketsCount _bucketSizeInBytes).start s) {ops : List Op}
    (permitted : (Session.system scheme a _bucketsCount _bucketSizeInBytes).Permitted s ops) :
    let system := Session.system scheme a _bucketsCount _bucketSizeInBytes
    Transition.Path (StoreStep (Session.Excuses scheme a)) BlockStore.empty
        (system.trace (Transition.situated (Session.shown scheme a)) s ops)
        ((system.run s ops).view scheme a) ∧
      ((system.run s ops).view scheme a).Separate := by
  intro system
  have path := (Session.simulates_store integral wellFormed).run
    (Transition.Reachable.start start) permitted
  have nothing : s.view scheme a = BlockStore.empty := by
    rcases start with ⟨w, -, -, -, rfl⟩
    rfl
  rw [nothing] at path
  exact ⟨path, StoreStep.path_separate path BlockStore.separate_empty⟩

/-- A fallback heap that serves two requests after the buffer. -/
def threeAnswers (k : Nat) : Nat :=
  if k = 0 then 8192 else if k = 1 then 131072 else if k = 2 then 262144 else 0

def Session.fewBlocks : Session := Session.initial .piecewise threeAnswers 0 21 4096

/-- Thread 0 takes the only block of a page and creates a cache.  Thread 1 has a
block that it has written to moved to the fallback heap, and loses it when it is
to move into the exhausted bucket.  Another request is refused. -/
def growthAndLoss : List Op :=
  [.alloc 0 4096 4, .createThreadCache 0 .hot [3], .alloc 1 16 4, .write 8240 0 7,
    .realloc 1 8240 5000 4, .realloc 1 262144 4096 4, .alloc 0 5000 4]

theorem growthAndLoss_permitted :
    (Session.system .piecewise 0 21 4096).Permitted Session.fewBlocks growthAndLoss := by
  refine ⟨⟨by decide, valid_four⟩, ⟨?_, by decide +kernel, by decide, by decide +kernel⟩,
    ⟨by decide, valid_four⟩, ⟨by decide +kernel, by decide +kernel⟩,
    ⟨Or.inr (by decide +kernel), by decide, valid_four⟩,
    ⟨Or.inr (by decide +kernel), by decide, valid_four⟩, ⟨by decide, valid_four⟩, trivial⟩
  intro i
  rfl

theorem Session.refines_store_fewBlocks :
    (Session.system .piecewise 0 21 4096).trace (Session.shown .piecewise 0) Session.fewBlocks
        growthAndLoss = [.allocated 4096 4 90112, .allocated 16 4 8240, .written 8240 0 7,
          .moved 8240 5000 4 262144, .lost 1 262144 4096 4, .refused 5000 4] ∧
      Transition.Path (StoreStep (Session.Excuses .piecewise 0)) BlockStore.empty
        ((Session.system .piecewise 0 21 4096).trace
          (Transition.situated (Session.shown .piecewise 0)) Session.fewBlocks growthAndLoss)
        (((Session.system .piecewise 0 21 4096).run Session.fewBlocks growthAndLoss).view
          .piecewise 0) ∧
      (((Session.system .piecewise 0 21 4096).run Session.fewBlocks growthAndLoss).view
        .piecewise 0).Separate :=
  ⟨by decide +kernel, Session.refines_store (by decide) ⟨⟨by decide, by decide, by decide⟩, by decide⟩
    (Session.initial_start (by decide)) growthAndLoss_permitted⟩

/-- What a client has in a block stays there in every run, whatever all threads
do, until a call names the block. -/
theorem Session.undisturbed (integral : scheme ≠ .float)
    (wellFormed : WellFormed scheme _bucketsCount _bucketSizeInBytes)
    (reachable : (Session.system scheme a _bucketsCount _bucketSizeInBytes).Reachable s)
    {ops : List Op}
    (permitted : (Session.system scheme a _bucketsCount _bucketSizeInBytes).Permitted s ops)
    (unnamed : forall call, call ∈ (Session.system scheme a _bucketsCount
      _bucketSizeInBytes).trace (Session.shown scheme a) s ops -> p ∉ call.names) :
    ((Session.system scheme a _bucketsCount _bucketSizeInBytes).run s ops).view scheme a p =
      s.view scheme a p := by
  apply StoreStep.path_frame ((Session.simulates_store integral wellFormed).run reachable permitted)
  intro call member
  apply unnamed
  rw [← Transition.trace_situated]
  exact List.mem_map_of_mem member

theorem Session.undisturbed_onePage :
    ((Session.system .piecewise 0 1 4096).run Session.onePageTwo
        [.free 1 8192, .realloc 0 0 16 4]).view .piecewise 0 8208 =
      Session.onePageTwo.view .piecewise 0 8208 := by
  have shows : (Session.system .piecewise 0 1 4096).trace (Session.shown .piecewise 0)
      Session.onePageTwo [.free 1 8192, .realloc 0 0 16 4] =
      [.released 8192, .allocated 16 4 8192] := by decide +kernel
  refine Session.undisturbed (by decide) (onePage_wellFormed (by decide))
    Session.onePageTwo_reachable
    ⟨Or.inr (by decide +kernel), ⟨Or.inl (by decide), by decide, valid_four⟩, trivial⟩ ?_
  rw [shows]
  decide

end SmMalloc
