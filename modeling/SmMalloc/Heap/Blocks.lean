import SmMalloc.Foundation.Transition
import SmMalloc.Model.GenericHeader
import SmMalloc.Pool.Ledger

namespace SmMalloc

open Foundation

/-!
# The blocks of the fallback heap

Clients and the pool use the fallback heap that the library brings along, on a
`std::malloc` that other parts of the program use as well.  The only record of
a block is the header in front of it, in the same memory that the clients
write to; what `Free` hands to `std::free`, and what `GetUsableSpace` answers,
is read from there.

`std::malloc` answers with any memory that is not in use, and not with the
first page.  The guards ask of the callers that a request leaves room for the
header, that they hold what they give back, and that they write to the bytes
they have asked for.
-/

/-! ## std::malloc -/

/-- `std::malloc` and the chunks it has given.  The `answers` are arbitrary;
one that is not fresh memory counts as a refusal. -/
structure Malloc where
  chunks : List Region
  answers : Nat -> Nat
  asked : Nat

namespace Malloc

/-- What is promised of an answer. -/
def Serves (malloc : Malloc) (size p : Nat) : Prop :=
  kMaxValidAlignment ≤ p ∧ p + size ≤ 2 ^ 64 ∧ 16 ∣ p ∧
    forall r, r ∈ malloc.chunks -> Region.Apart ⟨p, size⟩ r

instance (malloc : Malloc) (size p : Nat) : Decidable (malloc.Serves size p) := by
  unfold Serves
  infer_instance

/-- What the next call gets: the next answer, or null. -/
def answer (malloc : Malloc) (size : Nat) : Nat :=
  if malloc.Serves size (malloc.answers malloc.asked) then malloc.answers malloc.asked else 0

/-- After a call of `std::malloc`. -/
def take (malloc : Malloc) (size : Nat) : Malloc where
  chunks := if malloc.answer size = 0 then malloc.chunks
    else ⟨malloc.answer size, size⟩ :: malloc.chunks
  answers := malloc.answers
  asked := malloc.asked + 1

theorem serves_of_answer {malloc : Malloc} {size : Nat} (answered : malloc.answer size ≠ 0) :
    malloc.Serves size (malloc.answer size) := by
  unfold answer at answered ⊢
  split at answered
  next serves =>
    rw [if_pos serves]
    exact serves
  next => exact absurd rfl answered

/-- `std::free` -/
def free (malloc : Malloc) (p : Nat) : Malloc :=
  { malloc with chunks := malloc.chunks.filter (fun r => r.base != p) }

end Malloc

/-! ## The heap and its clients -/

/-- The memory, `std::malloc`, the blocks that clients hold, and the chunks
that other parts of the program have. -/
structure GenericHeap where
  mem : Memory
  malloc : Malloc
  held : List Nat
  others : List Nat

/-- The calls of the heap, what clients write, and what goes on elsewhere. -/
inductive HeapMove
  | alloc (bytesCount alignment : Nat)
  | free (p : Nat)
  | realloc (p bytesCount alignment : Nat)
  | write (p k : Nat) (v : UInt8)
  | malloc (size : Nat)
  | giveBack (p : Nat)
  | scribble (x : Nat) (v : UInt8)

namespace GenericHeap

/-- `GenericAllocator::GetUsableSpace` -/
def getUsableSpace (s : GenericHeap) (p : Nat) : Nat := GenericHeader.getUsableSpace s.mem p

/-- `GenericAllocator::Alloc` -/
def alloc (s : GenericHeap) (bytesCount alignment : Nat) : Nat × GenericHeap :=
  let r := GenericHeader.alloc s.malloc.answer s.mem bytesCount alignment
  (r.1, { s with
    mem := r.2
    malloc := s.malloc.take (GenericHeader.mallocSize bytesCount alignment)
    held := if r.1 = 0 then s.held else r.1 :: s.held })

/-- `GenericAllocator::Free` -/
def free (s : GenericHeap) (p : Nat) : GenericHeap :=
  match GenericHeader.free s.mem p with
  | none => s
  | some origin => { s with malloc := s.malloc.free origin, held := s.held.erase p }

/-- `GenericAllocator::Realloc` -/
def realloc (s : GenericHeap) (p bytesCount alignment : Nat) : Nat × GenericHeap :=
  let allocated := s.alloc bytesCount alignment
  let p2 := allocated.1
  let s := allocated.2
  if p2 = 0 then (0, s)
  else
    let s := if p ≠ 0 then
        { s with mem := s.mem.move p2 p (min (s.getUsableSpace p) bytesCount) }
      else s
    (p2, s.free p)

def step (s : GenericHeap) : HeapMove -> GenericHeap
  | .alloc bytesCount alignment => (s.alloc bytesCount alignment).2
  | .free p => s.free p
  | .realloc p bytesCount alignment => (s.realloc p bytesCount alignment).2
  | .write p k v => { s with mem := s.mem.poke (p + k) v }
  | .malloc size =>
      { s with
        malloc := s.malloc.take size
        others := if s.malloc.answer size = 0 then s.others else s.malloc.answer size :: s.others }
  | .giveBack p => { s with malloc := s.malloc.free p, others := s.others.erase p }
  | .scribble x v => { s with mem := s.mem.poke x v }

/-- The size of the chunk that a request is cut from does not wrap around. -/
def Requestable (bytesCount alignment : Nat) : Prop :=
  ValidAlignment alignment ∧ bytesCount + GenericHeader.offset alignment < 2 ^ 64

/-- The chunk that the header of a block names. -/
def origin (mem : Memory) (p : Nat) : Nat := mem.read (p - GenericHeader.headerSize) 8

/-- The address lies in the chunk of a held block. -/
def Ours (s : GenericHeap) (x : Nat) : Prop :=
  ∃ p r, p ∈ s.held ∧ r ∈ s.malloc.chunks ∧ r.base = origin s.mem p ∧
    r.base ≤ x ∧ x < r.base + r.size

def Allowed (s : GenericHeap) : HeapMove -> Prop
  | .alloc bytesCount alignment => Requestable bytesCount alignment
  | .free p => p = 0 ∨ p ∈ s.held
  | .realloc p bytesCount alignment => (p = 0 ∨ p ∈ s.held) ∧ Requestable bytesCount alignment
  | .write p k _ => p ∈ s.held ∧ k < s.getUsableSpace p
  | .malloc _ => True
  | .giveBack p => p ∈ s.others
  | .scribble x _ => ¬ s.Ours x

/-- Nothing has been allocated by the heap. -/
structure Start (s : GenericHeap) : Prop where
  held : s.held = []
  others : s.malloc.chunks.map Region.base = s.others
  apart : s.malloc.chunks.Pairwise Region.Apart

/-- All runs of the heap and of the program around it. -/
def system : Transition GenericHeap HeapMove where
  start := Start
  allowed := Allowed
  next := step

/-! ## Headers -/

variable {s s' : GenericHeap} {mem mem' : Memory} {r c : Region}
variable {p q bytesCount alignment : Nat}

/-- The block at `q` is cut from the chunk `r`, and its header says so. -/
structure Cut (mem : Memory) (r : Region) (q : Nat) : Prop where
  low : kMaxValidAlignment ≤ r.base
  high : r.base + r.size ≤ 2 ^ 64
  room : r.base + GenericHeader.headerSize ≤ q
  payload : q + max (GenericHeader.getUsableSpace mem q) 1 ≤ r.base + r.size
  origin : GenericHeap.origin mem q = r.base
  aligned : kMinValidAlignment ∣ q

namespace Cut

theorem readable (cut : Cut mem r q) : kMaxValidAlignment < q := by
  have room := cut.room
  have low := cut.low
  unfold GenericHeader.headerSize at room
  omega

theorem ne_zero (cut : Cut mem r q) : q ≠ 0 := by
  have readable := cut.readable
  omega

/-- The header is found without wrapping around. -/
theorem sizeSub (cut : Cut mem r q) :
    SmMalloc.sizeSub q GenericHeader.headerSize = q - GenericHeader.headerSize := by
  have room := cut.room
  have payload := cut.payload
  have high := cut.high
  exact sizeSub_of_le (by omega) (by omega)

/-- Only the header says it. -/
theorem usable_congr (cut : Cut mem r q)
    (agree : forall x, r.base ≤ x -> x < q -> mem' x = mem x) :
    GenericHeader.getUsableSpace mem' q = GenericHeader.getUsableSpace mem q := by
  have room := cut.room
  unfold GenericHeader.headerSize at room
  rw [GenericHeader.getUsableSpace, GenericHeader.getUsableSpace, if_neg cut.ne_zero,
    if_neg cut.ne_zero, cut.sizeSub]
  apply Memory.read_congr
  intro k bound
  unfold GenericHeader.headerSize
  exact agree _ (by omega) (by omega)

theorem origin_congr (cut : Cut mem r q)
    (agree : forall x, r.base ≤ x -> x < q -> mem' x = mem x) :
    GenericHeap.origin mem' q = GenericHeap.origin mem q := by
  have room := cut.room
  unfold GenericHeader.headerSize at room
  apply Memory.read_congr
  intro k bound
  unfold GenericHeader.headerSize
  exact agree _ (by omega) (by omega)

theorem congr (cut : Cut mem r q) (agree : forall x, r.base ≤ x -> x < q -> mem' x = mem x) :
    Cut mem' r q where
  low := cut.low
  high := cut.high
  room := cut.room
  payload := by
    rw [cut.usable_congr agree]
    exact cut.payload
  origin := (cut.origin_congr agree).trans cut.origin
  aligned := cut.aligned

end Cut

/-! ## The invariant -/

/-- Every chunk is that of one block, or another's, and every block is in its chunk. -/
structure Inv (s : GenericHeap) : Prop where
  apart : s.malloc.chunks.Pairwise Region.Apart
  homes : (s.malloc.chunks.map Region.base).Perm (s.held.map (origin s.mem) ++ s.others)
  cut : forall q, q ∈ s.held -> ∃ r, r ∈ s.malloc.chunks ∧ Cut s.mem r q

theorem Start.inv (start : Start s) : Inv s where
  apart := start.apart
  homes := by
    rw [start.held, start.others]
    exact List.Perm.refl _
  cut := by
    intro q member
    rw [start.held] at member
    cases member

/-- No header has been written to. -/
def SameHeaders (s : GenericHeap) (mem' : Memory) : Prop :=
  forall q r, q ∈ s.held -> r ∈ s.malloc.chunks -> Cut s.mem r q ->
    forall x, r.base ≤ x -> x < q -> mem' x = s.mem x

namespace Inv

theorem nodup (inv : Inv s) : (s.held.map (origin s.mem) ++ s.others).Nodup :=
  inv.homes.nodup_iff.mp (Region.bases_nodup inv.apart)

theorem held_nodup (inv : Inv s) : s.held.Nodup :=
  List.Nodup.of_map _ (List.nodup_append.mp inv.nodup).1

/-- Two blocks are cut from chunks that are apart. -/
theorem apart_of_ne (inv : Inv s) (member : p ∈ s.held) (member' : q ∈ s.held) (different : p ≠ q)
    (chunk : r ∈ s.malloc.chunks) (cut : Cut s.mem r p)
    (chunk' : c ∈ s.malloc.chunks) (cut' : Cut s.mem c q) : r.Apart c := by
  have : Std.Symm Region.Apart := ⟨fun _ _ apart => apart.symm⟩
  apply inv.apart.forall chunk chunk'
  rintro rfl
  apply different
  have injective := List.inj_on_of_nodup_map (List.nodup_append.mp inv.nodup).1
  exact injective member member' (cut.origin.trans cut'.origin.symm)

/-- The headers are what matters of the memory. -/
theorem of_mem (inv : Inv s) (agree : s.SameHeaders mem') : Inv { s with mem := mem' } where
  apart := inv.apart
  homes := by
    have same : s.held.map (origin mem') = s.held.map (origin s.mem) := by
      apply List.map_congr_left
      intro q member
      rcases inv.cut q member with ⟨r, chunk, cut⟩
      exact cut.origin_congr (agree q r member chunk cut)
    change (s.malloc.chunks.map Region.base).Perm (s.held.map (origin mem') ++ s.others)
    rw [same]
    exact inv.homes
  cut := by
    intro q member
    rcases inv.cut q member with ⟨r, chunk, cut⟩
    exact ⟨r, chunk, cut.congr (agree q r member chunk cut)⟩

/-- And so are the chunks. -/
theorem of_chunks {malloc : Malloc} (inv : Inv s) (chunks : malloc.chunks = s.malloc.chunks) :
    Inv { s with malloc := malloc } := by
  refine ⟨?_, ?_, ?_⟩
  · rw [chunks]
    exact inv.apart
  · rw [chunks]
    exact inv.homes
  · rw [chunks]
    exact inv.cut

/-- What is written to the payload of one block leaves every header alone. -/
theorem payload (inv : Inv s) (member : p ∈ s.held)
    (agree : forall x, x < p ∨ p + s.getUsableSpace p ≤ x -> mem' x = s.mem x) :
    s.SameHeaders mem' := by
  intro q r member' chunk cut x low high
  rcases inv.cut p member with ⟨c, chunk', cut'⟩
  apply agree
  by_cases same : p = q
  · subst same
    exact Or.inl high
  · have between := inv.apart_of_ne member member' same chunk' cut' chunk cut
    have payload := cut'.payload
    have payload' := cut.payload
    have room := cut'.room
    unfold Region.Apart at between
    unfold getUsableSpace
    omega

end Inv

/-! ## Allocation -/

/-- A block of `bytesCount` at `q` has been cut from the chunk `c`, which is new. -/
structure Placed (s s' : GenericHeap) (c : Region) (bytesCount alignment q : Nat) : Prop where
  held : s'.held = q :: s.held
  others : s'.others = s.others
  chunks : s'.malloc.chunks = c :: s.malloc.chunks
  fresh : forall r, r ∈ s.malloc.chunks -> c.Apart r
  cut : Cut s'.mem c q
  usable : s'.getUsableSpace q = bytesCount
  aligned : alignment ∣ q
  frame : forall x, x < c.base ∨ c.base + c.size ≤ x -> s'.mem x = s.mem x

theorem dvd_atLeastMin (valid : ValidAlignment alignment) :
    alignment ∣ GenericHeader.atLeastMin alignment := by
  rw [GenericHeader.atLeastMin_eq_max]
  rcases valid with ⟨k, -, rfl⟩
  by_cases small : 2 ^ k ≤ kMinValidAlignment
  · have power : k ≤ 2 := (Nat.pow_le_pow_iff_right (by decide)).mp (small : 2 ^ k ≤ 2 ^ 2)
    rw [Nat.max_eq_right small]
    exact Nat.pow_dvd_pow 2 power
  · rw [Nat.max_eq_left (Nat.le_of_not_le small)]

theorem min_dvd_atLeastMin (valid : ValidAlignment alignment) :
    kMinValidAlignment ∣ GenericHeader.atLeastMin alignment := by
  rcases GenericHeader.valid_atLeastMin valid with ⟨k, low, -, power⟩
  rw [power]
  exact Nat.pow_dvd_pow 2 low

/-- An even address and an odd offset do not reach the end of memory, nor a block. -/
theorem odd_offset {n : Nat} (valid : ValidAlignment alignment) (even : 2 ∣ p) (even' : 2 ∣ n) :
    p + GenericHeader.offset alignment ≠ n := by
  rcases GenericHeader.valid_atLeastMin valid with ⟨k, low, -, power⟩
  have positive := Nat.two_pow_pos k
  have divides : 2 ∣ 2 ^ k := dvd_pow_self 2 (by omega)
  unfold GenericHeader.offset GenericHeader.headerSize
  rw [power]
  omega

/-- `Alloc` refuses, or it cuts a block from a new chunk. -/
theorem alloc_cases (s : GenericHeap) (requestable : Requestable bytesCount alignment) :
    (∃ malloc : Malloc, malloc.chunks = s.malloc.chunks ∧
        s.alloc bytesCount alignment = (0, { s with malloc := malloc }) ∧
        s.malloc.answer (GenericHeader.mallocSize bytesCount alignment) = 0) ∨
      ∃ c, Placed s (s.alloc bytesCount alignment).2 c bytesCount alignment
        (s.alloc bytesCount alignment).1 := by
  rcases requestable with ⟨valid, fits⟩
  obtain ⟨p, isP⟩ : ∃ p, p = s.malloc.answer (GenericHeader.mallocSize bytesCount alignment) :=
    ⟨_, rfl⟩
  by_cases refused : p = 0
  · left
    refine ⟨s.malloc.take (GenericHeader.mallocSize bytesCount alignment), ?_, ?_, isP ▸ refused⟩
    · exact if_pos (isP ▸ refused)
    · have none : GenericHeader.alloc s.malloc.answer s.mem bytesCount alignment = (0, s.mem) :=
        if_pos (isP ▸ refused)
      simp only [alloc, none, if_true]
  · right
    have size : GenericHeader.mallocSize bytesCount alignment =
        bytesCount + GenericHeader.offset alignment := Nat.mod_eq_of_lt fits
    have served : s.malloc.answer (GenericHeader.mallocSize bytesCount alignment) ≠ 0 :=
      isP ▸ refused
    have serves := Malloc.serves_of_answer served
    rw [← isP, size] at serves
    rcases serves with ⟨low, high, sixteen, fresh⟩
    have even : 2 ∣ p := Nat.dvd_trans (by decide) sixteen
    have inside : p + GenericHeader.offset alignment < 2 ^ 64 := by
      have notEnd := odd_offset (n := 2 ^ 64) valid even (by decide)
      omega
    obtain ⟨q, opened, aligned, header, slack⟩ : ∃ q,
        GenericHeader.alloc s.malloc.answer s.mem bytesCount alignment =
          (q, GenericHeader.withHeader s.mem q p bytesCount) ∧ _ :=
      GenericHeader.alloc_cut valid isP refused inside
    have least := Nat.dvd_trans (min_dvd_atLeastMin valid) aligned
    have before : q < p + GenericHeader.offset alignment :=
      Nat.lt_of_le_of_ne slack (odd_offset valid even (Nat.dvd_trans (by decide) least)).symm
    have notNull : q ≠ 0 := by
      unfold GenericHeader.headerSize at header
      omega
    have result : s.alloc bytesCount alignment = (q, { s with
        mem := GenericHeader.withHeader s.mem q p bytesCount
        malloc := s.malloc.take (GenericHeader.mallocSize bytesCount alignment)
        held := q :: s.held }) := by
      simp only [alloc, opened, if_neg notNull]
    have chunks : (s.malloc.take (GenericHeader.mallocSize bytesCount alignment)).chunks =
        ⟨p, bytesCount + GenericHeader.offset alignment⟩ :: s.malloc.chunks := by
      rw [← size, isP]
      exact if_neg served
    have usable : GenericHeader.getUsableSpace (GenericHeader.withHeader s.mem q p bytesCount) q =
        bytesCount := by
      rw [GenericHeader.getUsableSpace, if_neg notNull, sizeSub_of_le (by omega) (by omega)]
      exact GenericHeader.withHeader_size (by omega)
    refine ⟨⟨p, bytesCount + GenericHeader.offset alignment⟩, ?_⟩
    rw [result]
    refine ⟨rfl, rfl, chunks, fresh, ⟨low, high, header, ?_, ?_, least⟩, usable,
      Nat.dvd_trans (dvd_atLeastMin valid) aligned, ?_⟩
    · rw [usable]
      change q + max bytesCount 1 ≤ p + (bytesCount + GenericHeader.offset alignment)
      omega
    · have addressable : p < 2 ^ 64 := by omega
      exact GenericHeader.withHeader_origin (by omega) addressable (fun _ _ => rfl)
    · intro x outside
      change x < p ∨ p + (bytesCount + GenericHeader.offset alignment) ≤ x at outside
      unfold GenericHeader.headerSize at header
      change GenericHeader.withHeader s.mem q p bytesCount x = s.mem x
      unfold GenericHeader.withHeader GenericHeader.headerSize
      rw [Memory.write_outside (by omega), Memory.write_outside (by omega)]

/-- A new block leaves the old ones as they are. -/
theorem Placed.agree (placed : Placed s s' c bytesCount alignment q) (chunk : r ∈ s.malloc.chunks)
    {x : Nat} (low : r.base ≤ x) (high : x < r.base + r.size) : s'.mem x = s.mem x := by
  have between := placed.fresh r chunk
  apply placed.frame
  unfold Region.Apart at between
  omega

theorem Placed.old (placed : Placed s s' c bytesCount alignment q) (chunk : r ∈ s.malloc.chunks)
    (cut : Cut s.mem r p) {x : Nat} (low : r.base ≤ x) (high : x < p) : s'.mem x = s.mem x := by
  have payload := cut.payload
  exact placed.agree chunk low (by omega)

theorem Placed.inv (placed : Placed s s' c bytesCount alignment q) (inv : Inv s) : Inv s' where
  apart := by
    rw [placed.chunks]
    exact List.Pairwise.cons placed.fresh inv.apart
  homes := by
    have same : s.held.map (origin s'.mem) = s.held.map (origin s.mem) := by
      apply List.map_congr_left
      intro p member
      rcases inv.cut p member with ⟨r, chunk, cut⟩
      exact cut.origin_congr (fun x low high => placed.old chunk cut low high)
    rw [placed.chunks, placed.held, placed.others, List.map_cons, List.map_cons, placed.cut.origin,
      same]
    exact inv.homes.cons _
  cut := by
    intro p member
    rw [placed.held] at member
    rcases List.mem_cons.mp member with rfl | old
    · exact ⟨c, placed.chunks ▸ List.mem_cons_self, placed.cut⟩
    · rcases inv.cut p old with ⟨r, chunk, cut⟩
      refine ⟨r, placed.chunks ▸ List.mem_cons_of_mem c chunk, ?_⟩
      exact cut.congr (fun x low high => placed.old chunk cut low high)

/-! ## Release -/

/-- `std::free` takes away the chunk that begins where it is told. -/
theorem free_bases {malloc : Malloc} (apart : malloc.chunks.Pairwise Region.Apart) (p : Nat) :
    (malloc.free p).chunks.map Region.base = (malloc.chunks.map Region.base).erase p := by
  rw [(Region.bases_nodup apart).erase_eq_filter, List.filter_map]
  rfl

theorem mem_free_chunks {malloc : Malloc} (chunk : r ∈ malloc.chunks) (other : r.base ≠ p) :
    r ∈ (malloc.free p).chunks :=
  List.mem_filter.mpr ⟨chunk, bne_iff_ne.mpr other⟩

/-- `Free` hands exactly the chunk of the block to `std::free`. -/
theorem Cut.free (cut : Cut s.mem r p) :
    s.free p = { s with malloc := s.malloc.free r.base, held := s.held.erase p } := by
  have named : GenericHeader.free s.mem p = some r.base := by
    rw [GenericHeader.free, if_neg cut.ne_zero, cut.sizeSub]
    exact congrArg some cut.origin
  simp only [GenericHeap.free, named]

namespace Inv

theorem free (inv : Inv s) (member : p ∈ s.held) (chunk : r ∈ s.malloc.chunks)
    (cut : Cut s.mem r p) : Inv (s.free p) := by
  rw [cut.free]
  have divided : (s.held.map (origin s.mem) ++ s.others).Perm
      (r.base :: ((s.held.erase p).map (origin s.mem) ++ s.others)) := by
    have first := (List.perm_cons_erase member).map (origin s.mem)
    rw [List.map_cons, cut.origin] at first
    exact first.append_right s.others
  refine ⟨inv.apart.filter _, ?_, ?_⟩
  · change ((s.malloc.free r.base).chunks.map Region.base).Perm _
    rw [free_bases inv.apart]
    have erased := (inv.homes.trans divided).erase r.base
    rw [List.erase_cons_head] at erased
    exact erased
  · intro q member'
    have still := List.mem_of_mem_erase member'
    have different : p ≠ q := by
      rintro rfl
      exact inv.held_nodup.not_mem_erase member'
    rcases inv.cut q still with ⟨c, chunk', cut'⟩
    refine ⟨c, mem_free_chunks chunk' ?_, cut'⟩
    intro same
    have between := inv.apart_of_ne member still different chunk cut chunk' cut'
    unfold Region.Apart at between
    omega

/-- Another part of the program gives back a chunk of its own. -/
theorem giveBack (inv : Inv s) (member : p ∈ s.others) : Inv (s.step (.giveBack p)) := by
  refine ⟨inv.apart.filter _, ?_, ?_⟩
  · change ((s.malloc.free p).chunks.map Region.base).Perm _
    rw [free_bases inv.apart]
    have absent : p ∉ s.held.map (origin s.mem) := fun ours =>
      (List.nodup_append.mp inv.nodup).2.2 p ours p member rfl
    have erased := inv.homes.erase p
    rw [List.erase_append_right _ absent] at erased
    exact erased
  · intro q held
    rcases inv.cut q held with ⟨r, chunk, cut⟩
    refine ⟨r, mem_free_chunks chunk ?_, cut⟩
    rintro rfl
    exact (List.nodup_append.mp inv.nodup).2.2 _ (List.mem_map.mpr ⟨q, held, cut.origin⟩) _ member rfl

/-- Another part of the program calls `std::malloc`. -/
theorem malloc (inv : Inv s) (size : Nat) : Inv (s.step (.malloc size)) := by
  by_cases refused : s.malloc.answer size = 0
  · have opened : s.step (.malloc size) = { s with malloc := s.malloc.take size } := by
      simp only [step, if_pos refused]
    rw [opened]
    exact inv.of_chunks (if_pos refused)
  · have opened : s.step (.malloc size) = { s with
        malloc := ⟨⟨s.malloc.answer size, size⟩ :: s.malloc.chunks, s.malloc.answers,
          s.malloc.asked + 1⟩
        others := s.malloc.answer size :: s.others } := by
      simp only [step, Malloc.take, if_neg refused]
    rw [opened]
    refine ⟨List.Pairwise.cons (Malloc.serves_of_answer refused).2.2.2 inv.apart, ?_, ?_⟩
    · exact (inv.homes.cons _).trans List.perm_middle.symm
    · intro q member
      rcases inv.cut q member with ⟨r, chunk, cut⟩
      exact ⟨r, List.mem_cons_of_mem _ chunk, cut⟩

/-- A store that hits no chunk of a block. -/
theorem scribble {x : Nat} (elsewhere : ¬ s.Ours x) (v : UInt8) :
    s.SameHeaders (s.mem.poke x v) := by
  intro q r member chunk cut y low high
  apply Memory.poke_outside
  rintro rfl
  have payload := cut.payload
  exact elsewhere ⟨q, r, member, chunk, cut.origin.symm, low, by omega⟩

theorem write (inv : Inv s) {k : Nat} (member : p ∈ s.held) (inside : k < s.getUsableSpace p)
    (v : UInt8) : s.SameHeaders (s.mem.poke (p + k) v) := by
  apply inv.payload member
  intro x outside
  apply Memory.poke_outside
  omega

/-- `Alloc` keeps the invariant. -/
theorem alloc (inv : Inv s) (requestable : Requestable bytesCount alignment) :
    Inv (s.alloc bytesCount alignment).2 := by
  rcases alloc_cases s requestable with ⟨malloc, chunks, result, -⟩ | ⟨c, placed⟩
  · rw [result]
    exact inv.of_chunks chunks
  · exact placed.inv inv

end Inv

/-! ## Reallocation -/

/-- After the copy, before the old block goes. -/
def copied (s : GenericHeap) (p q bytesCount : Nat) : GenericHeap :=
  { s with mem := s.mem.move q p (min (s.getUsableSpace p) bytesCount) }

/-- `Realloc` without a block is `Alloc`. -/
theorem realloc_null (s : GenericHeap) (bytesCount alignment : Nat) :
    s.realloc 0 bytesCount alignment = s.alloc bytesCount alignment := by
  have nothing : forall s : GenericHeap, s.free 0 = s := fun _ => rfl
  by_cases refused : (s.alloc bytesCount alignment).1 = 0
  · simp only [realloc, if_pos refused]
    rw [← refused]
  · simp only [realloc, if_neg refused, ne_eq, not_true_eq_false, if_false, nothing]

/-- `Realloc` of a block that is refused. -/
theorem realloc_refused (refused : (s.alloc bytesCount alignment).1 = 0) :
    s.realloc p bytesCount alignment = (0, (s.alloc bytesCount alignment).2) := by
  simp only [realloc, if_pos refused]

theorem realloc_served (nonNull : p ≠ 0) (served : (s.alloc bytesCount alignment).1 ≠ 0) :
    s.realloc p bytesCount alignment = ((s.alloc bytesCount alignment).1,
      ((s.alloc bytesCount alignment).2.copied p (s.alloc bytesCount alignment).1
        bytesCount).free p) := by
  simp only [realloc, if_neg served, if_pos nonNull]
  rfl

/-- The copy stays inside the new block. -/
theorem Placed.copied_outside (placed : Placed s s' c bytesCount alignment q) {x : Nat}
    (outside : x < q ∨ q + s'.getUsableSpace q ≤ x) :
    (s'.copied p q bytesCount).mem x = s'.mem x := by
  rw [placed.usable] at outside
  have few := Nat.min_le_right (s'.getUsableSpace p) bytesCount
  apply Memory.move_outside
  omega

namespace Inv

theorem copied (inv : Inv s) (placed : Placed s s' c bytesCount alignment q) (p : Nat) :
    s'.SameHeaders (s'.copied p q bytesCount).mem := by
  have member : q ∈ s'.held := placed.held ▸ List.mem_cons_self
  exact (placed.inv inv).payload member (fun x outside => placed.copied_outside outside)

theorem realloc (inv : Inv s) (member : p = 0 ∨ p ∈ s.held)
    (requestable : Requestable bytesCount alignment) :
    Inv (s.realloc p bytesCount alignment).2 := by
  by_cases served : (s.alloc bytesCount alignment).1 = 0
  · rw [realloc_refused served]
    exact inv.alloc requestable
  rcases member with rfl | member
  · rw [realloc_null]
    exact inv.alloc requestable
  rcases alloc_cases s requestable with ⟨malloc, -, result, -⟩ | ⟨c, placed⟩
  · rw [result] at served
    exact absurd rfl served
  have after := (placed.inv inv).of_mem (inv.copied placed p)
  have still : p ∈ ((s.alloc bytesCount alignment).2.copied p (s.alloc bytesCount alignment).1
      bytesCount).held := by
    change p ∈ (s.alloc bytesCount alignment).2.held
    rw [placed.held]
    exact List.mem_cons_of_mem _ member
  rcases inv.cut p member with ⟨_, -, old⟩
  rcases after.cut p still with ⟨r, chunk, cut⟩
  rw [realloc_served old.ne_zero served]
  exact after.free still chunk cut

/-- Every permitted step keeps the invariant. -/
theorem step {move : HeapMove} (inv : Inv s) (allowed : Allowed s move) : Inv (s.step move) := by
  cases move with
  | alloc bytesCount alignment => exact inv.alloc allowed
  | free p =>
      rcases allowed with rfl | member
      · exact inv
      · rcases inv.cut p member with ⟨r, chunk, cut⟩
        exact inv.free member chunk cut
  | realloc p bytesCount alignment => exact inv.realloc allowed.1 allowed.2
  | write p k v => exact inv.of_mem (inv.write allowed.1 allowed.2 v)
  | malloc size => exact inv.malloc size
  | giveBack p => exact inv.giveBack allowed
  | scribble x v => exact inv.of_mem (scribble allowed v)

end Inv

/-- It holds in every run. -/
theorem reachable_inv (reachable : system.Reachable s) : Inv s :=
  reachable.invariant (fun _ start => Start.inv start) (fun _ _ _ inv allowed => inv.step allowed)

end GenericHeap

end SmMalloc
