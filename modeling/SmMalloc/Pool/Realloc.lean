import SmMalloc.Pool.Requests

namespace SmMalloc

open Foundation

/-!
# Reallocation

`Realloc` has four ways to succeed: the block stays where it is, or its
contents move from the pool or from the fallback heap to a new block, which
is in the pool or on the heap in turn.  All moves are one argument here.  The
new block is outside while the old one still is, so the move writes only bytes
that are outside, and the release of the old block comes last.
-/

variable {scheme : Partitioning} {pool : Pool scheme} {m m' : Machine} {w : World}
variable {a i t o p r x : Nat} {bytesCount alignment : Nat} {out : List Nat}

/-! ## Threads that may use their caches -/

/-- Every cache bucket of thread `t` belongs to allocator `a` or is closed. -/
def Machine.Ready (m : Machine) (a t : Nat) : Prop :=
  forall i, (m.tls t i).Bounded ∧ m.Accepting a i t

theorem TlsPoolBucket.Bounded.empty {self : TlsPoolBucket} (bounded : self.Bounded)
    (closed : self.maxElementsCount = 0) : self.getElementsCount = 0 := by
  have level0 := bounded.closed closed
  have level1 := bounded.levelL1
  unfold getElementsCount
  omega

theorem Machine.Ready.usable (ready : m.Ready a t) (i : Nat) : m.Usable a i t := by
  rcases ready i with ⟨bounded, caching | closed⟩
  · exact Or.inl caching.pBucket
  · exact Or.inr (bounded.empty closed)

theorem Machine.Ready.accepting (ready : m.Ready a t) (i : Nat) : m.Accepting a i t := (ready i).2

theorem Machine.Accepting.kept (accepting : m.Accepting a i t)
    (kept : (m.tls t i).Kept (m'.tls t i))
    (space : forall p, m.heap.getUsableSpace p ≤ m'.heap.getUsableSpace p) : m'.Accepting a i t := by
  rcases accepting with caching | closed
  · exact Or.inl ⟨kept.pBucket.trans caching.pBucket, kept.bounded caching.bounded,
      caching.backed.kept kept (space _)⟩
  · exact Or.inr (kept.maxElementsCount.trans closed)

/-! ## Bytes of blocks -/

theorem Pool.FreeByte.inside (free : pool.FreeByte out x) :
    pool.base ≤ x ∧ x < pool.base + pool.bucketsCount * pool.bucketSizeInBytes := by
  rcases free with ⟨i, o, bound, block, -, low, high⟩
  have fits := block.end_le bound
  have base := pool.base_le_pData i
  have top := Pool.bucket_end_le bound
  omega

/-- The bytes of a block that is outside are not free. -/
theorem Pool.IsBlock.not_free (block : pool.IsBlock i o) (bound : i < pool.bucketsCount)
    (member : o ∈ pool.offsets out i) (low : pool.pData i + o ≤ x)
    (high : x < pool.pData i + o + pool.elementSize i) : ¬ pool.FreeByte out x := by
  rintro ⟨j, o', bound', block', absent, low', high'⟩
  rcases block.byte_unique bound low high block' bound' low' high' with ⟨rfl, rfl⟩
  exact absent member

/-- No block is outside twice. -/
theorem PoolInv.fresh_offset (inv : PoolInv pool a m ((pool.pData i + o) :: out))
    (bound : i < pool.bucketsCount) (block : pool.IsBlock i o) : o ∉ pool.offsets out i := by
  rcases inv.buckets i bound with ⟨central, bucket⟩
  rw [Pool.offsets_cons_block bound block] at bucket
  exact (List.nodup_cons.mp (bucket.custody.nodup Holder.client)).1

/-- Where an address that is outside lies. -/
theorem PoolInv.outside_cases (inv : PoolInv pool a m (p :: out)) (addressable : p < 2 ^ 64) :
    pool.bucketsCount ≤ pool.findBucket p ∨
      ∃ i o, i < pool.bucketsCount ∧ pool.IsBlock i o ∧ p = pool.pData i + o := by
  by_cases inside : pool.findBucket p < pool.bucketsCount
  · right
    rcases inv.block_of_mem List.mem_cons_self inside rfl addressable with ⟨o, block, address⟩
    exact ⟨_, o, inside, block, address⟩
  · exact Or.inl (Nat.le_of_not_lt inside)

/-- Data may be moved into a block that has just been allocated. -/
theorem Allocated.move {count : Nat} (inv : PoolInv pool a m out) (source : Nat)
    (positive : 0 < bytesCount) (bytesBound : bytesCount < 2 ^ 64)
    (valid : ValidAlignment alignment)
    (allocated : Allocated pool a t bytesCount alignment out m r m') (served : r ≠ 0)
    (amount : count ≤ bytesCount) :
    PoolInv pool a { m' with mem := m'.mem.move r source count } (r :: out) := by
  apply (allocated.inv inv positive).write_out
  intro x changed
  have inside : r ≤ x ∧ x < r + count := by
    by_contra outside
    exact changed (Memory.move_outside (by omega))
  cases allocated with
  | block j o bound suitable _ taken =>
      right
      have fits := suitable.fits pool.sized positive bytesBound valid
        (Nat.lt_of_lt_of_le bound pool.count_le)
      refine ⟨j, o, bound, ?_, inside.1, ?_⟩
      · rw [Pool.offsets_cons_block bound taken.block]
        exact List.mem_cons_self
      · exact Nat.lt_of_lt_of_le inside.2 (Nat.add_le_add_left (Nat.le_trans amount fits.1) _)
  | generic =>
      left
      have serves := GenericAllocator.serves_of_answer served
      have apart := serves.2.2.2.2 _ inv.buffer
      unfold Region.Apart at apart
      simp only at apart
      omega

/-! ## The outcomes -/

/-- The outcomes of a reallocation of `p` to at least one byte, where `out` is
what else is outside. -/
inductive Reallocated (pool : Pool scheme) (a t p bytesCount alignment : Nat) (out : List Nat)
    (m : Machine) : Nat -> Machine -> Prop
  | inPlace (i o : Nat) (bound : i < pool.bucketsCount) (block : pool.IsBlock i o)
      (address : p = pool.pData i + o) (fits : bytesCount ≤ pool.elementSize i) :
      Reallocated pool a t p bytesCount alignment out m p m
  | refused {m' : Machine}
      (allocated : Allocated pool a t bytesCount alignment (p :: out) m 0 m') :
      Reallocated pool a t p bytesCount alignment out m 0 m'
  | lost {m' : Machine} (elsewhere : pool.bucketsCount ≤ pool.findBucket p)
      (allocated : Allocated pool a t bytesCount alignment (p :: out) m 0 m') :
      Reallocated pool a t p bytesCount alignment out m 0 { m' with heap := m'.heap.free p }
  | fromPool {r : Nat} {m' m'' : Machine} (i o : Nat) (bound : i < pool.bucketsCount)
      (block : pool.IsBlock i o) (address : p = pool.pData i + o)
      (short : pool.elementSize i < bytesCount)
      (allocated : Allocated pool a t bytesCount alignment (p :: out) m r m') (served : r ≠ 0)
      (released : Released pool a t (r :: out)
        { m' with mem := m'.mem.move r p (pool.elementSize i) } m'') :
      Reallocated pool a t p bytesCount alignment out m r m''
  | fromHeap {r : Nat} {m' : Machine} (elsewhere : pool.bucketsCount ≤ pool.findBucket p)
      (allocated : Allocated pool a t bytesCount alignment (p :: out) m r m') (served : r ≠ 0) :
      Reallocated pool a t p bytesCount alignment out m r { m' with
        mem := m'.mem.move r p (min (m'.heap.getUsableSpace p) bytesCount)
        heap := m'.heap.free p }

theorem memmove_served {target source count : Nat} (served : target ≠ 0) :
    Allocator.memmove w target source count =
      { w with mem := w.mem.move target source count } := if_neg served

/-- The rounded size of the request passes the check of the size class. -/
def ClassChecked (scheme : Partitioning) (bytesCount alignment : Nat) : Prop :=
  forall w : World, w.checkBucketIndexBySize scheme (align bytesCount alignment) = w

/-- Reallocation of a pool block. -/
theorem PoolInv.realloc_block
    (inv : PoolInv pool a w.toMachine ((pool.pData i + o) :: out)) (ready : w.Ready a t)
    (bound : i < pool.bucketsCount) (block : pool.IsBlock i o) (valid : ValidAlignment alignment)
    (positive : bytesCount ≠ 0) (bytesBound : bytesCount < 2 ^ 64) :
    let r := Allocator.realloc scheme w a t (pool.pData i + o) bytesCount alignment
    Reallocated pool a t (pool.pData i + o) bytesCount alignment out w.toMachine r.1
        r.2.toMachine ∧
      (ClassChecked scheme bytesCount alignment -> r.2.failed = w.failed) := by
  intro r
  have above := pool.block_readable i o
  have found : (w.allocs a).findBucket (pool.pData i + o) = i :=
    (inv.represents.findBucket _).trans (Pool.findBucket_block bound block)
  have opened : r = _ :=
    realloc_inside above positive (by rw [found, inv.represents.bucketsCount]; exact bound)
  simp only [found] at opened
  by_cases fits : bytesCount ≤ scheme.getBucketSizeInBytesByIndex i
  · rw [if_pos fits] at opened
    rw [opened]
    exact ⟨Reallocated.inPlace i o bound block rfl fits, fun _ => rfl⟩
  rw [if_neg fits] at opened
  have short : pool.elementSize i < bytesCount := Nat.lt_of_not_le fits
  have allocated := inv.allocate true (t := t) valid positive (fun _ => ready.usable _)
  simp only at allocated
  rcases allocated with ⟨allocated, failed⟩
  unfold Allocator.alloc at opened
  by_cases served : (Allocator.allocate scheme true w a t bytesCount alignment).1 = 0
  · rw [if_pos served] at opened
    rw [opened]
    rw [served] at allocated
    exact ⟨Reallocated.refused allocated, fun checked => by rw [failed, checked w]⟩
  · rw [if_neg served, memmove_served served] at opened
    have moved := allocated.move inv (pool.pData i + o) (Nat.pos_of_ne_zero positive)
      bytesBound valid served (Nat.le_of_lt short)
    obtain ⟨before, isBefore⟩ : ∃ before : World, before =
        { (Allocator.allocate scheme true w a t bytesCount alignment).2 with
          mem := (Allocator.allocate scheme true w a t bytesCount alignment).2.mem.move
            (Allocator.allocate scheme true w a t bytesCount alignment).1 (pool.pData i + o)
            (scheme.getBucketSizeInBytesByIndex i) } := ⟨_, rfl⟩
    rw [← isBefore] at opened
    have swapped : PoolInv pool a before.toMachine ((pool.pData i + o) ::
        (Allocator.allocate scheme true w a t bytesCount alignment).1 :: out) := by
      rw [isBefore]
      exact moved.perm (List.Perm.swap _ _ _)
    have accepting : before.Accepting a i t := by
      rw [isBefore]
      exact (ready.accepting i).kept (allocated.slots i) allocated.space
    have released := swapped.free_block bound block accepting
    rw [opened]
    refine ⟨Reallocated.fromPool i o bound block rfl short allocated served ?_, fun checked => ?_⟩
    · have result := released.1
      rw [isBefore] at result
      rw [isBefore]
      exact result
    · exact released.2.trans (isBefore ▸ failed.trans (by rw [checked w]))

/-- Reallocation of a block of the fallback heap. -/
theorem PoolInv.realloc_generic (inv : PoolInv pool a w.toMachine (p :: out))
    (ready : w.Ready a t) (above : kMaxValidAlignment < p)
    (elsewhere : pool.bucketsCount ≤ pool.findBucket p) (valid : ValidAlignment alignment)
    (positive : bytesCount ≠ 0) :
    let r := Allocator.realloc scheme w a t p bytesCount alignment
    Reallocated pool a t p bytesCount alignment out w.toMachine r.1 r.2.toMachine ∧
      (ClassChecked scheme bytesCount alignment -> r.2.failed = w.failed) := by
  intro r
  have count := inv.represents.bucketsCount
  have outside : ¬ (w.allocs a).findBucket p < (w.allocs a).bucketsCount := by
    rw [inv.represents.findBucket, count]
    exact Nat.not_lt_of_le elsewhere
  rcases realloc_outside above positive valid outside with
    ⟨checkedWorld, isChecked, sameMachine, -, -, opened⟩
  change r = _ at opened
  simp only [count] at opened
  have sameFailed : ClassChecked scheme bytesCount alignment -> checkedWorld.failed = w.failed :=
    fun checked => by rw [isChecked, checked w]
  rw [← sameMachine] at inv ready ⊢
  by_cases inside : requestIndex scheme bytesCount alignment < pool.bucketsCount
  · rw [if_pos inside] at opened
    have allocated := inv.allocate true (t := t) valid positive (fun _ => ready.usable _)
    simp only at allocated
    rcases allocated with ⟨allocated, failed⟩
    have failed' : ClassChecked scheme bytesCount alignment ->
        (Allocator.allocate scheme true checkedWorld a t bytesCount alignment).2.failed = w.failed :=
      fun checked => by rw [failed, checked checkedWorld, sameFailed checked]
    unfold Allocator.alloc at opened
    by_cases served : (Allocator.allocate scheme true checkedWorld a t bytesCount alignment).1 = 0
    · rw [opened, served]
      rw [served] at allocated
      exact ⟨Reallocated.lost elsewhere allocated, failed'⟩
    · rw [memmove_served served] at opened
      rw [opened]
      exact ⟨Reallocated.fromHeap elsewhere allocated served, failed'⟩
  · rw [if_neg inside] at opened
    have allocated : Allocated pool a t bytesCount alignment (p :: out) checkedWorld.toMachine
        (checkedWorld.heap.answer bytesCount alignment)
        { checkedWorld.toMachine with
          heap := (checkedWorld.heap.alloc bytesCount alignment).2 } :=
      Allocated.generic (fun impossible => absurd impossible inside)
    have nonNull : p ≠ 0 := by omega
    have answer : (checkedWorld.heap.alloc bytesCount alignment).1 =
        checkedWorld.heap.answer bytesCount alignment := rfl
    simp only [Allocator.genericRealloc, answer, if_pos nonNull] at opened
    by_cases served : checkedWorld.heap.answer bytesCount alignment = 0
    · rw [if_pos served] at opened
      rw [opened]
      rw [served] at allocated
      exact ⟨Reallocated.refused allocated, sameFailed⟩
    · rw [if_neg served, memmove_served served] at opened
      rw [opened]
      exact ⟨Reallocated.fromHeap elsewhere allocated served, sameFailed⟩

/-- `Realloc` of a block that is outside, to at least one byte. -/
theorem PoolInv.realloc (inv : PoolInv pool a w.toMachine (p :: out)) (ready : w.Ready a t)
    (above : kMaxValidAlignment < p) (addressable : p < 2 ^ 64) (valid : ValidAlignment alignment)
    (positive : bytesCount ≠ 0) (bytesBound : bytesCount < 2 ^ 64) :
    let r := Allocator.realloc scheme w a t p bytesCount alignment
    Reallocated pool a t p bytesCount alignment out w.toMachine r.1 r.2.toMachine ∧
      (ClassChecked scheme bytesCount alignment -> r.2.failed = w.failed) := by
  rcases inv.outside_cases addressable with elsewhere | ⟨i, o, bound, block, rfl⟩
  · exact inv.realloc_generic ready above elsewhere valid positive
  · exact inv.realloc_block ready bound block valid positive bytesBound

end SmMalloc
