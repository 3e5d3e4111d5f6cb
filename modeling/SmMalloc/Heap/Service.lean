import SmMalloc.Foundation.BlockStore
import SmMalloc.Heap.Blocks
import SmMalloc.Model.Allocate

namespace SmMalloc

open Foundation

/-!
# What the fallback heap does for its callers

The rest of this development knows the fallback heap by its contract: the
record of live blocks that `GenericAllocator` is.  Here the heap that the
library brings along meets it.  In every run there are answers with which the
contract gives the same addresses, has the same blocks live and knows the same
sizes, although the heap itself has nothing but the headers in its memory.

To those who write to the blocks it is a store of blocks, as the pool is.
-/

namespace GenericAllocator

/-- The calls that the contract speaks of. -/
def serve (heap : GenericAllocator) : HeapMove -> GenericAllocator
  | .alloc bytesCount alignment => (heap.alloc bytesCount alignment).2
  | .free p => heap.free p
  | .realloc p bytesCount alignment =>
      let allocated := heap.alloc bytesCount alignment
      if allocated.1 = 0 then allocated.2 else allocated.2.free p
  | _ => heap

/-- The addresses that the contract gives. -/
def answered (heap : GenericAllocator) : HeapMove -> Option Nat
  | .alloc bytesCount alignment => some (heap.answer bytesCount alignment)
  | .realloc _ bytesCount alignment => some (heap.answer bytesCount alignment)
  | _ => none

/-- The heap as its contract has it. -/
def system : Transition GenericAllocator HeapMove where
  start := fun heap => heap.live = []
  allowed := fun _ _ => True
  next := serve

end GenericAllocator

namespace GenericHeap

variable {s s' : GenericHeap} {mem : Memory} {r c : Region} {heap : GenericAllocator}
variable {p q bytesCount alignment : Nat}

/-! ## The record of live blocks -/

/-- The block at `p`, as its header has it. -/
def region (s : GenericHeap) (p : Nat) : Region := ⟨p, s.getUsableSpace p⟩

/-- What the contract says is live. -/
def record (s : GenericHeap) : List Region := s.held.map s.region

/-- The addresses that the heap gives. -/
def answered (s : GenericHeap) : HeapMove -> Option Nat
  | .alloc bytesCount alignment => some (s.alloc bytesCount alignment).1
  | .realloc _ bytesCount alignment => some (s.alloc bytesCount alignment).1
  | _ => none

namespace Inv

/-- Blocks inside chunks that are apart are apart. -/
theorem region_apart (inv : Inv s) (member : p ∈ s.held) (member' : q ∈ s.held)
    (different : p ≠ q) : (s.region p).Apart (s.region q) := by
  rcases inv.cut p member with ⟨r, chunk, cut⟩
  rcases inv.cut q member' with ⟨c, chunk', cut'⟩
  have between := inv.apart_of_ne member member' different chunk cut chunk' cut'
  have room := cut.room
  have room' := cut'.room
  have payload := cut.payload
  have payload' := cut'.payload
  unfold Region.Apart at between ⊢
  change p + max (s.getUsableSpace p) 1 ≤ q ∨ q + max (s.getUsableSpace q) 1 ≤ p
  unfold getUsableSpace
  omega

theorem record_apart (inv : Inv s) : s.record.Pairwise Region.Apart := by
  rw [record, List.pairwise_map]
  exact inv.held_nodup.imp_of_mem (fun member member' different =>
    inv.region_apart member member' different)

end Inv

/-- A step that no header notices leaves the record as it is. -/
theorem record_congr (held : s'.held = s.held)
    (same : forall p, p ∈ s.held -> s'.getUsableSpace p = s.getUsableSpace p) :
    s'.record = s.record := by
  rw [record, record, held]
  apply List.map_congr_left
  intro p member
  rw [region, region, same p member]

theorem record_of_mem (inv : Inv s) {mem' : Memory} (agree : s.SameHeaders mem') :
    ({ s with mem := mem' } : GenericHeap).record = s.record := by
  refine record_congr ?_ ?_
  · rfl
  intro q member
  rcases inv.cut q member with ⟨r, chunk, cut⟩
  exact cut.usable_congr (agree q r member chunk cut)

namespace Placed

theorem usable_old (placed : Placed s s' c bytesCount alignment q) (inv : Inv s)
    (member : p ∈ s.held) : s'.getUsableSpace p = s.getUsableSpace p := by
  rcases inv.cut p member with ⟨r, chunk, cut⟩
  exact cut.usable_congr (fun x low high => placed.old chunk cut low high)

theorem record (placed : Placed s s' c bytesCount alignment q) (inv : Inv s) :
    s'.record = ⟨q, bytesCount⟩ :: s.record := by
  rw [GenericHeap.record, placed.held, List.map_cons, region, placed.usable]
  congr 1
  apply List.map_congr_left
  intro p member
  rw [region, region, placed.usable_old inv member]

/-- The new block is as the contract wants it. -/
theorem serves (placed : Placed s s' c bytesCount alignment q) (inv : Inv s)
    (live : heap.live = s.record) : heap.Serves bytesCount alignment q := by
  have cut := placed.cut
  have payload := cut.payload
  have room := cut.room
  have usable : GenericHeader.getUsableSpace s'.mem q = bytesCount := placed.usable
  rw [usable] at payload
  refine ⟨cut.readable, ?_, placed.aligned, cut.aligned, ?_⟩
  · have high := cut.high
    omega
  · intro r member
    rw [live] at member
    rcases List.mem_map.mp member with ⟨p, isHeld, rfl⟩
    rcases inv.cut p isHeld with ⟨r, chunk, old⟩
    have between := placed.fresh r chunk
    have room' := old.room
    have payload' := old.payload
    unfold Region.Apart at between ⊢
    change q + max bytesCount 1 ≤ p ∨ p + max (s.getUsableSpace p) 1 ≤ q
    unfold getUsableSpace
    omega

end Placed

/-- `Free` takes the block out of the record. -/
theorem Cut.record_free (cut : Cut s.mem r p) (inv : Inv s) :
    (s.free p).record = s.record.filter (fun c => c.base != p) := by
  rw [cut.free, GenericHeap.record, GenericHeap.record, List.filter_map]
  change (s.held.erase p).map s.region = _
  rw [inv.held_nodup.erase_eq_filter]
  rfl

/-! ## The contract is met -/

/-- The contract has the same record, and its next answers are to be those. -/
structure Meets (s : GenericHeap) (heap : GenericAllocator) (answers : List Nat) : Prop where
  live : heap.live = s.record
  answers : forall k, heap.answers (heap.asked + k) = answers.getD k 0

variable {answers : List Nat} {move : HeapMove}

namespace Meets

/-- It gives the address that it is meant to give. -/
theorem answer (meets : Meets s heap ((s.alloc bytesCount alignment).1 :: answers)) (inv : Inv s)
    (requestable : Requestable bytesCount alignment) :
    heap.answer bytesCount alignment = (s.alloc bytesCount alignment).1 := by
  have next : heap.answers heap.asked = (s.alloc bytesCount alignment).1 := meets.answers 0
  unfold GenericAllocator.answer
  rw [next]
  rcases alloc_cases s requestable with ⟨malloc, -, refused, -⟩ | ⟨c, placed⟩
  · rw [refused]
    split <;> rfl
  · exact if_pos (placed.serves inv meets.live)

/-- The record after an allocation. -/
theorem alloc (meets : Meets s heap ((s.alloc bytesCount alignment).1 :: answers)) (inv : Inv s)
    (requestable : Requestable bytesCount alignment) :
    Meets (s.alloc bytesCount alignment).2 (heap.alloc bytesCount alignment).2 answers where
  live := by
    simp only [GenericAllocator.alloc, meets.answer inv requestable, meets.live]
    rcases alloc_cases s requestable with ⟨malloc, -, refused, -⟩ | ⟨c, placed⟩
    · rw [refused]
      rfl
    · rw [if_neg placed.cut.ne_zero, placed.record inv]
  answers := by
    intro k
    have later := meets.answers (k + 1)
    rw [List.getD_cons_succ] at later
    rw [← later]
    change heap.answers (heap.asked + 1 + k) = _
    rw [Nat.add_assoc, Nat.add_comm 1 k]

theorem free (meets : Meets s heap answers) (inv : Inv s) (member : p = 0 ∨ p ∈ s.held) :
    Meets (s.free p) (heap.free p) answers := by
  rcases member with rfl | member
  · exact meets
  · rcases inv.cut p member with ⟨r, chunk, cut⟩
    have opened : heap.free p = { heap with
        live := heap.live.filter (fun r => r.base != p)
        events := .free p :: heap.events } := if_neg cut.ne_zero
    rw [opened]
    refine ⟨?_, meets.answers⟩
    rw [cut.record_free inv, ← meets.live]

end Meets

namespace Meets

/-- A store that no header notices does not show in the record. -/
theorem of_mem (meets : Meets s heap answers) (inv : Inv s) {mem' : Memory}
    (agree : s.SameHeaders mem') : Meets { s with mem := mem' } heap answers :=
  ⟨meets.live.trans (record_of_mem inv agree).symm, meets.answers⟩

/-- `Realloc` takes a new block, and then gives the old one back. -/
theorem realloc (meets : Meets s heap ((s.alloc bytesCount alignment).1 :: answers)) (inv : Inv s)
    (member : p = 0 ∨ p ∈ s.held) (requestable : Requestable bytesCount alignment) :
    Meets (s.realloc p bytesCount alignment).2 (heap.serve (.realloc p bytesCount alignment))
      answers := by
  have allocated := meets.alloc inv requestable
  have answer := meets.answer inv requestable
  by_cases served : (s.alloc bytesCount alignment).1 = 0
  · have refused : heap.serve (.realloc p bytesCount alignment) =
        (heap.alloc bytesCount alignment).2 := if_pos (answer.trans served)
    rw [realloc_refused served, refused]
    exact allocated
  have opened : heap.serve (.realloc p bytesCount alignment) =
      (heap.alloc bytesCount alignment).2.free p :=
    if_neg (fun refused => served (answer.symm.trans refused))
  rw [opened]
  rcases member with rfl | member
  · rw [realloc_null]
    exact allocated
  rcases alloc_cases s requestable with ⟨malloc, -, result, -⟩ | ⟨c, placed⟩
  · rw [result] at served
    exact absurd rfl served
  rcases inv.cut p member with ⟨_, -, old⟩
  have still : p ∈ (s.alloc bytesCount alignment).2.held := by
    rw [placed.held]
    exact List.mem_cons_of_mem _ member
  have agree := inv.copied placed p
  have copied := allocated.of_mem (placed.inv inv) agree
  rw [realloc_served old.ne_zero served]
  exact copied.free ((placed.inv inv).of_mem agree) (Or.inr still)

/-- What the heap does in one step, the contract does too. -/
theorem step (meets : Meets s heap ((s.answered move).toList ++ answers)) (inv : Inv s)
    (allowed : Allowed s move) :
    heap.answered move = s.answered move ∧ Meets (s.step move) (heap.serve move) answers := by
  cases move with
  | alloc bytesCount alignment =>
      exact ⟨congrArg some (meets.answer inv allowed), meets.alloc inv allowed⟩
  | free p => exact ⟨rfl, meets.free inv allowed⟩
  | realloc p bytesCount alignment =>
      exact ⟨congrArg some (meets.answer inv allowed.2), meets.realloc inv allowed.1 allowed.2⟩
  | write p k v => exact ⟨rfl, meets.of_mem inv (inv.write allowed.1 allowed.2 v)⟩
  | malloc size => exact ⟨rfl, ⟨meets.live, meets.answers⟩⟩
  | giveBack p => exact ⟨rfl, ⟨meets.live, meets.answers⟩⟩
  | scribble x v => exact ⟨rfl, meets.of_mem inv (Inv.scribble allowed v)⟩

/-- And so in any number of steps. -/
theorem run {moves : List HeapMove} : forall (s : GenericHeap) (heap : GenericAllocator),
    Inv s -> system.Permitted s moves -> Meets s heap (system.trace answered s moves) ->
    GenericAllocator.system.trace GenericAllocator.answered heap moves =
        system.trace answered s moves ∧
      Meets (system.run s moves) (GenericAllocator.system.run heap moves) [] := by
  induction moves with
  | nil => exact fun _ _ _ _ meets => ⟨rfl, meets⟩
  | cons move moves ih =>
      intro s heap inv permitted meets
      rcases meets.step inv permitted.1 with ⟨same, after⟩
      rcases ih _ _ (inv.step permitted.1) permitted.2 after with ⟨later, last⟩
      refine ⟨?_, last⟩
      simp only [Transition.trace, same]
      exact congrArg _ later

end Meets

/-- The heap of the library meets the contract in every run: for some answers
the contract gives the same addresses, and has the same blocks live with the
same sizes.  Every block has one chunk of `std::malloc`, and no other chunk is
the heap's. -/
theorem meets_contract {first : GenericHeap} (start : system.start first) {moves : List HeapMove}
    (permitted : system.Permitted first moves) :
    ∃ heap : GenericAllocator, GenericAllocator.system.start heap ∧
      GenericAllocator.system.trace GenericAllocator.answered heap moves =
        system.trace answered first moves ∧
      let s := system.run first moves
      let heap' := GenericAllocator.system.run heap moves
      heap'.live.map Region.base = s.held ∧
        (forall p, p ∈ s.held -> heap'.getUsableSpace p = s.getUsableSpace p) ∧
        (s.malloc.chunks.map Region.base).Perm (s.held.map (origin s.mem) ++ s.others) := by
  let heap : GenericAllocator :=
    ⟨[], fun k => (system.trace answered first moves).getD k 0, 0, []⟩
  have meets : Meets first heap (system.trace answered first moves) := by
    refine ⟨?_, fun k => ?_⟩
    · rw [record, start.held]
      rfl
    · change (system.trace answered first moves).getD (0 + k) 0 = _
      rw [Nat.zero_add]
  rcases meets.run first heap (Start.inv start) permitted with ⟨same, last⟩
  have inv := reachable_inv (Transition.Reachable.after (Transition.Reachable.start start) permitted)
  refine ⟨heap, rfl, same, ?_, fun p member => ?_, inv.homes⟩
  · rw [last.live, record, List.map_map]
    exact List.map_id _
  · have apart := inv.record_apart
    rw [← last.live] at apart
    have listed : (system.run first moves).region p ∈
        (GenericAllocator.system.run heap moves).live := by
      rw [last.live]
      exact List.mem_map_of_mem member
    exact GenericAllocator.getUsableSpace_of_live apart listed

/-- One chunk is not the heap's, and the next answers of `std::malloc` are pages. -/
def onePageEach : GenericHeap :=
  ⟨fun _ => 0, ⟨[⟨65536, 100⟩], fun k => 4096 * (k + 1), 0⟩, [], [65536]⟩

theorem onePageEach_start : system.start onePageEach :=
  ⟨rfl, rfl, List.pairwise_singleton Region.Apart _⟩

/-- A block is written to and has to move, among calls from elsewhere. -/
def movedRun : List HeapMove :=
  [.alloc 100 64, .malloc 32, .write 4160 5 7, .realloc 4160 200 64, .giveBack 65536, .alloc 0 1,
    .free 12352]

theorem movedRun_permitted : system.Permitted onePageEach movedRun := by
  refine ⟨⟨⟨6, by decide, rfl⟩, by decide⟩, trivial, ⟨?_, ?_⟩, ⟨Or.inr ?_, ⟨6, by decide, rfl⟩,
    by decide⟩, ?_, ⟨⟨0, by decide, rfl⟩, by decide⟩, Or.inr ?_, trivial⟩
  · decide +kernel
  · decide +kernel
  · decide +kernel
  · change 65536 ∈ GenericHeap.others _
    decide +kernel
  · decide +kernel

theorem meets_contract_moved :
    ∃ heap : GenericAllocator, GenericAllocator.system.start heap ∧
      GenericAllocator.system.trace GenericAllocator.answered heap movedRun =
        [4160, 12352, 16400] ∧
      let s := system.run onePageEach movedRun
      let heap' := GenericAllocator.system.run heap movedRun
      heap'.live.map Region.base = s.held ∧
        (forall p, p ∈ s.held -> heap'.getUsableSpace p = s.getUsableSpace p) ∧
        (s.malloc.chunks.map Region.base).Perm (s.held.map (origin s.mem) ++ s.others) := by
  have shows : system.trace answered onePageEach movedRun = [4160, 12352, 16400] := by
    decide +kernel
  rcases meets_contract onePageEach_start movedRun_permitted with ⟨heap, empty, same, last⟩
  exact ⟨heap, empty, same.trans shows, last⟩

/-! ## A store of blocks -/

def contents (s : GenericHeap) (p : Nat) : List UInt8 := s.mem.bytes p (s.getUsableSpace p)

@[simp] theorem length_contents (s : GenericHeap) (p : Nat) :
    (s.contents p).length = s.getUsableSpace p := Memory.length_bytes _ _ _

/-- The blocks that clients hold, with the bytes that they have asked for. -/
def view (s : GenericHeap) : BlockStore UInt8 := fun p =>
  if p ∈ s.held then some (s.contents p) else none

/-- What an observer sees of a step. -/
def shown (s : GenericHeap) : HeapMove -> Option (StoreCall UInt8)
  | .alloc bytesCount alignment =>
      let q := (s.alloc bytesCount alignment).1
      some (if q = 0 then .refused bytesCount alignment else .allocated bytesCount alignment q)
  | .free p => if p = 0 then none else some (.released p)
  | .realloc p bytesCount alignment =>
      let q := (s.alloc bytesCount alignment).1
      some (if q = 0 then .refused bytesCount alignment
        else if p = 0 then .allocated bytesCount alignment q else .moved p bytesCount alignment q)
  | .write p k v => some (.written p k v)
  | _ => none

/-- What excuses a refusal. -/
def Excuses (s : GenericHeap) : StoreCall UInt8 -> Prop
  | .refused bytesCount alignment =>
      s.malloc.answer (GenericHeader.mallocSize bytesCount alignment) = 0
  | _ => False

theorem view_of_mem (member : p ∈ s.held) : s.view p = some (s.contents p) := if_pos member

theorem view_of_not_mem (absent : p ∉ s.held) : s.view p = none := if_neg absent

theorem mem_of_view {found : List UInt8} (isFound : s.view p = some found) :
    p ∈ s.held ∧ found = s.contents p := by
  unfold view at isFound
  split at isFound
  next member => exact ⟨member, (Option.some.inj isFound).symm⟩
  next => cases isFound

theorem contents_congr (usable : s'.getUsableSpace p = s.getUsableSpace p)
    (agree : forall x, p ≤ x -> x < p + s.getUsableSpace p -> s'.mem x = s.mem x) :
    s'.contents p = s.contents p := by
  rw [contents, contents, usable]
  exact Memory.bytes_shift (fun k bound => agree (p + k) (Nat.le_add_right p k) (by omega))

/-- The bytes of the other blocks are not written to. -/
theorem Inv.contents_aside (inv : Inv s) (member : p ∈ s.held) (member' : q ∈ s.held)
    (different : q ≠ p) {mem' : Memory}
    (agree : forall x, x < p ∨ p + s.getUsableSpace p ≤ x -> mem' x = s.mem x) :
    ({ s with mem := mem' } : GenericHeap).contents q = s.contents q := by
  rcases inv.cut q member' with ⟨r, chunk, cut⟩
  refine contents_congr ?_ (fun x low high => agree x ?_)
  · exact cut.usable_congr (inv.payload member agree q r member' chunk cut)
  · have between := inv.region_apart member member' different.symm
    unfold Region.Apart at between
    change p + max (s.getUsableSpace p) 1 ≤ q ∨ q + max (s.getUsableSpace q) 1 ≤ p at between
    omega

/-- Writing to a block changes what it contains, and nothing else. -/
theorem Inv.view_payload (inv : Inv s) (member : p ∈ s.held) {mem' : Memory}
    (agree : forall x, x < p ∨ p + s.getUsableSpace p ≤ x -> mem' x = s.mem x) :
    ({ s with mem := mem' } : GenericHeap).view =
      s.view.put p (mem'.bytes p (s.getUsableSpace p)) := by
  funext q
  by_cases same : q = p
  · subst same
    rcases inv.cut q member with ⟨r, chunk, cut⟩
    let s' : GenericHeap := { s with mem := mem' }
    have seen : s'.view q = some (s'.contents q) := view_of_mem member
    have usable : s'.getUsableSpace q = s.getUsableSpace q :=
      cut.usable_congr (inv.payload member agree q r member chunk cut)
    rw [BlockStore.put_same, ← usable]
    exact seen
  · rw [BlockStore.put_of_ne same]
    by_cases member' : q ∈ s.held
    · rw [view_of_mem member', ← inv.contents_aside member member' same agree]
      exact view_of_mem member'
    · rw [view_of_not_mem member']
      exact view_of_not_mem member'

theorem Cut.view_free (cut : Cut s.mem r p) (inv : Inv s) : (s.free p).view = s.view.drop p := by
  rw [cut.free]
  funext q
  by_cases same : q = p
  · subst same
    rw [BlockStore.drop_same]
    exact view_of_not_mem inv.held_nodup.not_mem_erase
  · rw [BlockStore.drop_of_ne same]
    unfold view
    simp only [List.mem_erase_of_ne same]
    rfl

namespace Placed

theorem contents_old (placed : Placed s s' c bytesCount alignment q) (inv : Inv s)
    (member : p ∈ s.held) : s'.contents p = s.contents p := by
  rcases inv.cut p member with ⟨r, chunk, cut⟩
  have room := cut.room
  have payload := cut.payload
  refine contents_congr (placed.usable_old inv member) (fun x low high => ?_)
  unfold getUsableSpace at high
  exact placed.agree chunk (by omega) (by omega)

/-- The new block is nobody else's. -/
theorem not_held (placed : Placed s s' c bytesCount alignment q) (inv : Inv s) : q ∉ s.held := by
  have held := (placed.inv inv).held_nodup
  rw [placed.held] at held
  exact (List.nodup_cons.mp held).1

theorem view (placed : Placed s s' c bytesCount alignment q) (inv : Inv s) :
    s'.view = s.view.put q (s'.contents q) := by
  funext p
  have held := placed.held
  by_cases same : p = q
  · subst same
    rw [BlockStore.put_same]
    exact view_of_mem (held ▸ List.mem_cons_self)
  · rw [BlockStore.put_of_ne same]
    by_cases member : p ∈ s.held
    · rw [view_of_mem member, ← placed.contents_old inv member]
      exact view_of_mem (held ▸ List.mem_cons_of_mem q member)
    · rw [view_of_not_mem member]
      apply view_of_not_mem
      rw [held]
      exact List.not_mem_cons_of_ne_of_not_mem same member

/-- There is room for it among the other blocks. -/
theorem room (placed : Placed s s' c bytesCount alignment q) (inv : Inv s) :
    s.view.Room q bytesCount := by
  intro p found isFound
  rcases mem_of_view isFound with ⟨member, rfl⟩
  rcases inv.cut p member with ⟨r, chunk, cut⟩
  have between := placed.fresh r chunk
  have payload := placed.cut.payload
  have room := placed.cut.room
  have payload' := cut.payload
  have room' := cut.room
  have usable : GenericHeader.getUsableSpace s'.mem q = bytesCount := placed.usable
  rw [usable] at payload
  unfold Region.Apart at between
  rw [length_contents, getUsableSpace]
  omega

/-- An allocation, as the store has it. -/
theorem shows (placed : Placed s s' c bytesCount alignment q) (inv : Inv s) :
    StoreStep Excuses s.view (s, .allocated bytesCount alignment q) s'.view := by
  have length : (s'.contents q).length = bytesCount := by
    rw [length_contents, placed.usable]
  rw [placed.view inv]
  refine StoreStep.allocated (view_of_not_mem (placed.not_held inv)) (Nat.le_of_eq length.symm)
    placed.aligned ?_
  rw [length]
  exact placed.room inv

/-- The new block begins with what the old one contained. -/
theorem shows_moved (placed : Placed s s' c bytesCount alignment q) (inv : Inv s)
    (member : p ∈ s.held) :
    StoreStep Excuses s.view (s, .moved p bytesCount alignment q)
      ((s'.copied p q bytesCount).free p).view := by
  have after := placed.inv inv
  have member' : q ∈ s'.held := placed.held ▸ List.mem_cons_self
  have still : p ∈ s'.held := placed.held ▸ List.mem_cons_of_mem q member
  have different : p ≠ q := fun same => placed.not_held inv (same ▸ member)
  have agree := fun x outside => placed.copied_outside (p := p) (x := x) outside
  have usable : s'.getUsableSpace p = s.getUsableSpace p := placed.usable_old inv member
  let new := (s'.copied p q bytesCount).mem.bytes q bytesCount
  have view' : (s'.copied p q bytesCount).view = s.view.put q new := by
    have copied := after.view_payload member' agree
    rw [placed.usable, placed.view inv] at copied
    refine copied.trans ?_
    funext x
    by_cases same : x = q
    · subst same
      rw [BlockStore.put_same, BlockStore.put_same]
    · rw [BlockStore.put_of_ne same, BlockStore.put_of_ne same, BlockStore.put_of_ne same]
  have copiedInv := after.of_mem (inv.copied placed p)
  rcases copiedInv.cut p still with ⟨r, -, cut⟩
  have swapped : (s.view.put q new).drop p = (s.view.drop p).put q new := by
    unfold BlockStore.drop BlockStore.put
    exact (Function.update_comm different _ _ _).symm
  have last : ((s'.copied p q bytesCount).free p).view = (s.view.drop p).put q new := by
    refine (cut.view_free copiedInv).trans ?_
    rw [← swapped]
    exact congrArg (fun store => BlockStore.drop store p) view'
  rw [last]
  have length : new.length = bytesCount := Memory.length_bytes _ _ _
  refine StoreStep.moved (view_of_mem member) (view_of_not_mem (placed.not_held inv))
    (Nat.le_of_eq length.symm) placed.aligned ?_ ?_
  · rw [length]
    exact (placed.room inv).drop p
  · rw [length_contents, contents, Memory.take_bytes _ (Nat.min_le_right _ _),
      Memory.take_bytes _ (Nat.min_le_left _ _)]
    apply Memory.bytes_shift
    intro k few
    rw [← usable] at few
    have moved : (s'.copied p q bytesCount).mem (q + k) = s'.mem (p + k) :=
      Memory.move_inside few
    rcases inv.cut p member with ⟨c, chunk, old⟩
    have payload := old.payload
    have room := old.room
    rw [usable, getUsableSpace] at few
    rw [moved]
    exact placed.agree chunk (by omega) (by omega)

end Placed

/-- A step that changes nothing that clients see. -/
theorem view_congr (held : s'.held = s.held)
    (same : forall p, p ∈ s.held -> s'.contents p = s.contents p) : s'.view = s.view := by
  funext p
  by_cases member : p ∈ s.held
  · rw [view_of_mem member, view_of_mem (held ▸ member), same p member]
  · rw [view_of_not_mem member, view_of_not_mem (held ▸ member)]

theorem Inv.view_scribble (inv : Inv s) {x : Nat} (elsewhere : ¬ s.Ours x) (v : UInt8) :
    (s.step (.scribble x v)).view = s.view := by
  refine view_congr rfl (fun p member => ?_)
  rcases inv.cut p member with ⟨r, chunk, cut⟩
  refine contents_congr ?_ (fun y low high => ?_)
  · exact cut.usable_congr (Inv.scribble elsewhere v p r member chunk cut)
  · apply Memory.poke_outside
    rintro rfl
    have payload := cut.payload
    have room := cut.room
    unfold getUsableSpace at high
    exact elsewhere ⟨p, r, member, chunk, cut.origin.symm, by omega, by omega⟩

/-- A request for memory is one of the store. -/
theorem Inv.alloc_shows (inv : Inv s) (requestable : Requestable bytesCount alignment) :
    StoreStep Excuses s.view
      (s, if (s.alloc bytesCount alignment).1 = 0 then .refused bytesCount alignment
        else .allocated bytesCount alignment (s.alloc bytesCount alignment).1)
      (s.alloc bytesCount alignment).2.view := by
  rcases alloc_cases s requestable with ⟨malloc, -, result, refused⟩ | ⟨c, placed⟩
  · rw [result]
    exact StoreStep.refused refused
  · rw [if_neg placed.cut.ne_zero]
    exact placed.shows inv

/-- What a step shows is what it does. -/
theorem Inv.shown_step (inv : Inv s) (allowed : Allowed s move) :
    match s.shown move with
    | some call => StoreStep Excuses s.view (s, call) (s.step move).view
    | none => (s.step move).view = s.view := by
  cases move with
  | alloc bytesCount alignment => exact inv.alloc_shows allowed
  | free p =>
      rcases allowed with rfl | member
      · rfl
      · rcases inv.cut p member with ⟨r, -, cut⟩
        simp only [shown, if_neg cut.ne_zero]
        change StoreStep Excuses s.view _ (s.free p).view
        rw [cut.view_free inv]
        exact StoreStep.released (view_of_mem member)
  | realloc p bytesCount alignment =>
      change StoreStep Excuses s.view _ (s.realloc p bytesCount alignment).2.view
      rcases allowed with ⟨member, requestable⟩
      by_cases null : p = 0
      · subst null
        rw [realloc_null]
        exact inv.alloc_shows requestable
      have member := member.resolve_left null
      rcases alloc_cases s requestable with ⟨malloc, -, result, refused⟩ | ⟨c, placed⟩
      · have none : (s.alloc bytesCount alignment).1 = 0 := by rw [result]
        rw [if_pos none, realloc_refused none, result]
        exact StoreStep.refused refused
      · have served := placed.cut.ne_zero
        rw [if_neg served, if_neg null, realloc_served null served]
        exact placed.shows_moved inv member
  | write p k v =>
      rcases allowed with ⟨member, inside⟩
      have written : (s.step (.write p k v)).view =
          s.view.put p ((s.mem.poke (p + k) v).bytes p (s.getUsableSpace p)) := by
        apply inv.view_payload member
        intro x outside
        apply Memory.poke_outside
        omega
      change StoreStep Excuses s.view (s, .written p k v) _
      rw [written, Memory.bytes_poke]
      exact StoreStep.written (view_of_mem member) (Nat.lt_of_lt_of_eq inside (length_contents s p).symm)
  | malloc size => rfl
  | giveBack p => rfl
  | scribble x v => exact inv.view_scribble allowed v

theorem simulates_store : Transition.Simulation system (StoreStep Excuses) view
    (Transition.situated shown) := by
  apply Transition.simulation_situated
  intro s move reachable allowed
  have done := (reachable_inv reachable).shown_step allowed
  cases shows : s.shown move with
  | none =>
      rw [shows] at done
      exact done
  | some call =>
      rw [shows] at done
      exact done

/-- Whatever goes on around the heap, its clients see a run of the store, and
their blocks never overlap.  It refuses only what `malloc` refuses. -/
theorem stores_blocks {first : GenericHeap} (start : system.start first) {moves : List HeapMove}
    (permitted : system.Permitted first moves) :
    Transition.Path (StoreStep Excuses) BlockStore.empty
        (system.trace (Transition.situated shown) first moves) (system.run first moves).view ∧
      (system.run first moves).view.Separate := by
  have path := simulates_store.run (Transition.Reachable.start start) permitted
  have nothing : first.view = BlockStore.empty := by
    funext p
    apply view_of_not_mem
    rw [start.held]
    exact List.not_mem_nil
  rw [nothing] at path
  exact ⟨path, StoreStep.path_separate path BlockStore.separate_empty⟩

theorem stores_blocks_moved :
    system.trace shown onePageEach movedRun = [.allocated 100 64 4160, .written 4160 5 7,
        .moved 4160 200 64 12352, .allocated 0 1 16400, .released 12352] ∧
      Transition.Path (StoreStep Excuses) BlockStore.empty
        (system.trace (Transition.situated shown) onePageEach movedRun)
        (system.run onePageEach movedRun).view ∧
      (system.run onePageEach movedRun).view.Separate :=
  ⟨by decide +kernel, stores_blocks onePageEach_start movedRun_permitted⟩

end GenericHeap

end SmMalloc
