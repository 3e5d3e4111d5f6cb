import SmMalloc.Atomic.Ownership

namespace SmMalloc

open Foundation

/-!
# Where the runs begin

`Create` leaves all blocks of the bucket on the list, in the order of their
offsets, and the tag counter beyond every tag it has put into a link.  From
there the invariant of the owners holds in every run whose pushes put back
nothing that is remembered.

`Shows` relates the bucket to the memory that the whole allocator works on.
-/

variable {elementSize size t o : Nat} {s : AtomicBucket}

/-- A bucket that has room for a block. -/
structure Fits (elementSize size : Nat) : Prop where
  element_min : 8 ≤ elementSize
  one_block : elementSize ≤ size
  size_le : size ≤ 2 ^ 32

namespace Fits

theorem positive (fits : Fits elementSize size) : 0 < elementSize :=
  Nat.lt_of_lt_of_le (by decide) fits.element_min

theorem createdCount_eq (fits : Fits elementSize size) :
    createdCount elementSize size = size / elementSize :=
  Nat.max_eq_right (Nat.div_pos fits.one_block fits.positive)

/-- The counter does not wrap around while the blocks are counted. -/
theorem count_lt (fits : Fits elementSize size) : size / elementSize < 2 ^ 32 := by
  have atMost : size / elementSize ≤ size / 8 := Nat.div_le_div_left fits.element_min (by decide)
  have bound := fits.size_le
  omega

end Fits

/-- A bucket that `Create` cuts into at least two blocks. -/
structure Cut (elementSize size : Nat) : Prop where
  element_min : 8 ≤ elementSize
  two_blocks : 2 * elementSize ≤ size
  size_le : size ≤ 2 ^ 32

namespace Cut

theorem fits (cut : Cut elementSize size) : Fits elementSize size :=
  ⟨cut.element_min, Nat.le_trans (Nat.le_mul_of_pos_left _ (by decide)) cut.two_blocks, cut.size_le⟩

theorem count_ge (cut : Cut elementSize size) : 2 ≤ size / elementSize :=
  (Nat.le_div_iff_mul_le cut.fits.positive).mpr cut.two_blocks

end Cut

namespace AtomicBucket

/-- The offsets of the blocks. -/
def IsBlock (elementSize size o : Nat) : Prop := ∃ k, k < size / elementSize ∧ o = k * elementSize

theorem IsBlock.small (fits : Fits elementSize size) (block : IsBlock elementSize size o) :
    o + 1 < 2 ^ 32 := by
  rcases block with ⟨k, inside, isOffset⟩
  have ends := cell_end_le inside
  have atLeast := fits.element_min
  have bound := fits.size_le
  omega

/-- The list that `Create` builds. -/
def createdList (elementSize size : Nat) : List Nat :=
  (List.range (size / elementSize)).map (fun k => k * elementSize)

theorem mem_createdList : o ∈ createdList elementSize size <-> IsBlock elementSize size o := by
  rw [createdList, List.mem_map]
  constructor
  · rintro ⟨k, inside, rfl⟩
    exact ⟨k, List.mem_range.mp inside, rfl⟩
  · rintro ⟨k, inside, rfl⟩
    exact ⟨k, List.mem_range.mpr inside, rfl⟩

theorem createdList_nodup (fits : Fits elementSize size) : (createdList elementSize size).Nodup := by
  refine List.Nodup.map ?_ List.nodup_range
  intro j k same
  exact Nat.eq_of_mul_eq_mul_right fits.positive same

/-- A bucket as the runs find it. -/
structure Initial (elementSize size : Nat) (s : AtomicBucket) : Prop where
  head : s.head = ⟨0, 0⟩
  globalTag : s.globalTag = UInt32.ofNat (size / elementSize - 1)
  link : forall k, k < size / elementSize ->
    s.link (k * elementSize) = createdLink elementSize (size / elementSize) 0 k 0
  held : s.held = []
  pStorageL1 : forall t, s.pStorageL1 t = []
  point : forall t, s.point t = .idle

theorem Start.initial (start : Start elementSize size s) (fits : Fits elementSize size) :
    Initial elementSize size s := by
  rcases start with ⟨m, a, i, isEnd, rfl⟩
  have atLeast := fits.element_min
  have room' := fits.one_block
  have built := create_spec (m := m) (a := a) (i := i) fits.element_min (by omega)
  rcases built with ⟨created, pData, pBufferEnd, -⟩
  have room : (m.bucket a i).pBufferEnd - (m.bucket a i).pData = size := by omega
  refine ⟨created.head, ?_, ?_, rfl, fun _ => rfl, fun _ => rfl⟩
  · have tags := created.globalTag
    rw [pData, pBufferEnd, room, fits.createdCount_eq] at tags
    exact tags
  · have links := created.links
    rw [pBufferEnd, pData, room, fits.createdCount_eq] at links
    intro k inside
    change linksAt _ ((PoolBucket.create m a i elementSize).bucket a i).pData _ = _
    rw [pData]
    exact links k inside

/-- The counter stands behind the tag of the last link. -/
theorem Initial.counter (initial : Initial elementSize size s) (fits : Fits elementSize size) :
    s.globalTag.toNat = size / elementSize - 1 := by
  rw [initial.globalTag]
  exact UInt32.toNat_ofNat_of_lt' (Nat.lt_of_le_of_lt (Nat.sub_le _ 1) fits.count_lt)

/-- Everything is on the list at the start. -/
theorem Initial.owned (initial : Initial elementSize size s) (fits : Fits elementSize size) :
    Owned (IsBlock elementSize size) s (createdList elementSize size) where
  linked := by
    have list : createdList elementSize size =
        (List.range (createdCount elementSize size)).map (fun k => k * elementSize) := by
      rw [fits.createdCount_eq]
      rfl
    rw [initial.head, list]
    apply created_linked
    · intro k inside
      rw [fits.createdCount_eq] at inside ⊢
      exact initial.link k inside
    · intro k inside
      rw [fits.createdCount_eq] at inside
      exact IsBlock.small fits ⟨k, inside, rfl⟩
  custody := by
    apply Custody.of_single Keeper.central (createdList_nodup fits)
    · intro keeper notCentral
      cases keeper with
      | central => exact absurd rfl notCentral
      | stack t => exact initial.pStorageL1 t
      | thread t =>
          change (s.point t).blocks = []
          rw [initial.point t]
          rfl
      | client => exact initial.held
    · exact fun _ => mem_createdList
  fine := by
    intro t
    rw [initial.point t]
    trivial
  current := by
    intro t headValue nextValue here
    rw [initial.point t] at here
    cases here

/-- The invariant holds in every run whose pushes are not remembered. -/
theorem owned_of_reachable (fits : Fits elementSize size)
    (reachable : ((system elementSize size).restrict Unremembered).Reachable s) :
    ∃ central, Owned (IsBlock elementSize size) s central := by
  apply reachable.invariant
  · intro first start
    exact ⟨_, (Start.initial start fits).owned fits⟩
  · rintro before move - ⟨central, owned⟩ ⟨allowed, unremembered⟩
    exact ⟨_, owned.step (fun _ block => IsBlock.small fits block) allowed unremembered⟩

/-! ## The bucket in the memory of the allocator -/

variable {m : Machine} {a i : Nat}

/-- What there is to see of bucket `i` of allocator `a`. -/
structure Shows (elementSize size : Nat) (s : AtomicBucket) (m : Machine) (a i : Nat) : Prop where
  head : s.head = (m.bucket a i).head
  globalTag : s.globalTag = (m.bucket a i).globalTag
  link : forall o, IsBlock elementSize size o -> s.link o = linksAt m.mem (m.bucket a i).pData o

end AtomicBucket

end SmMalloc
