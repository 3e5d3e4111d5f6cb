import SmMalloc.Pool.Attach
import SmMalloc.Pool.FirstFit
import SmMalloc.Pool.Start

namespace SmMalloc

open Foundation

/-!
# Two allocators side by side

A thread cache has no idea of allocators: `GetTlsBucket` knows only the number
of a bucket.  Here all caches serve allocator `a`, and allocator `b` lives
beside it.  To the ledger of `a`, the buffer of `b` and the large blocks of
its clients are blocks that other parts of the program have.  A step of one
allocator keeps the pool of the other, as long as it finds nothing in a cache
that is not its own and puts nothing there.
-/

variable {scheme : Partitioning} {own other : Pool scheme} {m m' : Machine} {w w' : World}
variable {a b t p r : Nat} {bytesCount alignment : Nat} {rest kept out out' out'' : List Nat}
variable {_bucketsCount _bucketSizeInBytes : Nat}

/-- The buffer of a pool, as a block of the fallback heap. -/
def Pool.buffer (pool : Pool scheme) : Region :=
  ⟨pool.base, pool.bucketsCount * pool.bucketSizeInBytes⟩

/-- What `a` does not keep itself: the buffer of `b`, what its clients have
from the fallback heap, and what belongs to neither. -/
def Pool.shareOf (other : Pool scheme) (out' rest : List Nat) : List Nat :=
  other.base :: (other.elsewhere out' ++ rest)

theorem Pool.shareOf_block {j o : Nat} (bound : j < other.bucketsCount) (block : other.IsBlock j o) :
    other.shareOf ((other.pData j + o) :: out') rest = other.shareOf out' rest := by
  rw [shareOf, shareOf, Sound.elsewhere_cons_block bound block]

theorem Pool.shareOf_cons (elsewhere : other.bucketsCount ≤ other.findBucket p) :
    (other.shareOf (p :: out') rest).Perm (p :: other.shareOf out' rest) := by
  have listed : other.elsewhere (p :: out') = p :: other.elsewhere out' := by
    simp [Pool.elsewhere, elsewhere]
  rw [shareOf, listed]
  exact List.Perm.swap _ _ _

/-- Allocator `a` is sound with `out` outside, and allocator `b` beside it keeps
its invariant with `out'` outside. -/
structure Beside (own other : Pool scheme) (a b : Nat) (rest : List Nat) (m : Machine)
    (out out' : List Nat) : Prop where
  different : b ≠ a
  sound : Sound own a (other.shareOf out' rest) m out
  inv : PoolInv other b m out'
  addresses : forall p, p ∈ out' -> kMaxValidAlignment < p ∧ p < 2 ^ 64

/-- `Free` makes no block of the fallback heap live. -/
theorem Sound.free_live (sound : Sound own a rest w.toMachine (p :: out)) (t : Nat) {x : Region}
    (member : x ∈ (Allocator.free w a t p).heap.live) : x ∈ w.heap.live := by
  have address := sound.addresses p List.mem_cons_self
  rcases sound.inv.outside_cases address.2 with elsewhere | ⟨i, o, bound, block, rfl⟩
  · rw [sound.inv.free_generic address.1 elsewhere] at member
    have nonzero : p ≠ 0 := by omega
    change x ∈ (w.heap.free p).live at member
    rw [GenericAllocator.free_live nonzero] at member
    exact List.mem_of_mem_filter member
  · have released := (sound.inv.free_block bound block ((sound.ready t).accepting i)).1
    rwa [released.heap] at member

namespace Beside

/-- No cache serves `b`. -/
theorem uncached (beside : Beside own other a b rest m out out') (t i j : Nat) :
    (m.tls t i).pBucket ≠ some (b, j) := by
  intro owned
  rcases beside.sound.slots t i with idle | serving
  · rw [idle.pBucket] at owned
    cases owned
  · rw [serving.pBucket] at owned
    exact beside.different (congrArg Prod.fst (Option.some.inj owned)).symm

/-- The address of a block that `a` does not keep is not that of the buffer of `a`. -/
theorem base_ne (beside : Beside own other a b rest m out out')
    (member : p ∈ other.shareOf out' rest) : p ≠ own.base := by
  rintro rfl
  have mine : own.base ∈ m.heapShares own (other.shareOf out' rest) out HeapHolder.pool :=
    List.mem_cons_self
  have theirs : own.base ∈ m.heapShares own (other.shareOf out' rest) out HeapHolder.rest := member
  cases beside.sound.ledger.custody.holder_unique mine theirs

/-- Two live blocks at different addresses do not overlap. -/
theorem apart (beside : Beside own other a b rest m out out') {x y : Region}
    (member : x ∈ m.heap.live) (member' : y ∈ m.heap.live) (different : x.base ≠ y.base) :
    Region.Apart x y := by
  have : Std.Symm Region.Apart := ⟨fun _ _ apart => apart.symm⟩
  apply beside.sound.ledger.apart.forall member member'
  rintro rfl
  exact different rfl

/-- The two buffers do not overlap. -/
theorem buffers (beside : Beside own other a b rest m out out') :
    own.base + own.bucketsCount * own.bucketSizeInBytes ≤ other.base ∨
      other.base + other.bucketsCount * other.bucketSizeInBytes ≤ own.base := by
  have different := beside.base_ne List.mem_cons_self
  have apart := beside.apart beside.sound.inv.buffer beside.inv.buffer different.symm
  unfold Region.Apart at apart
  simp only at apart
  omega

/-- The order in which the addresses of `b` are listed does not matter. -/
theorem perm (beside : Beside own other a b rest m out out') (perm : out''.Perm out') :
    Beside own other a b rest m out out'' where
  different := beside.different
  sound := by
    have share : (other.shareOf out'' rest).Perm (other.shareOf out' rest) :=
      ((perm.filter _).append_right rest).cons other.base
    exact ⟨beside.sound.inv, beside.sound.slots, beside.sound.ledger.rest_perm share,
      beside.sound.addresses⟩
  inv := beside.inv.perm perm
  addresses := fun p member => beside.addresses p (perm.mem_iff.mp member)

/-! ## Steps of the allocator that has the caches -/

/-- A step of `a` that keeps `a` sound keeps the pool of `b`. -/
theorem own_step (beside : Beside own other a b rest m out out')
    (sound : Sound own a (other.shareOf out' rest) m' out'')
    (confined : Confined own a t kept m m') (buffer : other.buffer ∈ m'.heap.live) :
    Beside own other a b rest m' out'' out' where
  different := beside.different
  sound := sound
  inv := by
    have unserved : forall u i j, (m'.tls u i).pBucket ≠ some (b, j) := by
      intro u i j owned
      rcases sound.slots u i with idle | serving
      · rw [idle.pBucket] at owned
        cases owned
      · rw [serving.pBucket] at owned
        exact beside.different (congrArg Prod.fst (Option.some.inj owned)).symm
    apply beside.inv.frame (confined.allocs b beside.different)
    · intro x low high
      by_contra changed
      have inside := (confined.mem x changed).inside
      have apart := beside.buffers
      omega
    · intro u i
      rw [Machine.cached, if_neg (unserved u i i), Machine.cached, if_neg (beside.uncached u i i)]
    · exact fun u i j owned => absurd owned (unserved u i j)
    · exact buffer
  addresses := beside.addresses

/-- A block that `a` does not keep survives whatever only gives blocks back. -/
theorem buffer_of_shrunk (beside : Beside own other a b rest m out out')
    (sound : Sound own a (other.shareOf out' rest) m' out'')
    (shrunk : forall x, x ∈ m'.heap.live -> x ∈ m.heap.live) : other.buffer ∈ m'.heap.live := by
  have live : m'.heap.Live other.base :=
    sound.ledger.custody.supplied HeapHolder.rest List.mem_cons_self
  rcases List.mem_map.mp live with ⟨x, member, base⟩
  have same : x = other.buffer := GenericAllocator.eq_of_base beside.sound.ledger.apart
    (shrunk x member) beside.inv.buffer base
  rw [← same]
  exact member

/-! ## Steps of the allocator beside it -/

/-- A step of `b` that does not touch the caches keeps `a` sound. -/
theorem other_step (beside : Beside own other a b rest m out out')
    (inv : PoolInv other b m' out'') (allocs : m'.allocs a = m.allocs a) (tls : m'.tls = m.tls)
    (mem : forall x, m'.mem x ≠ m.mem x -> other.base ≤ x ∧
      x < other.base + other.bucketsCount * other.bucketSizeInBytes)
    (ledger : Ledger own (other.shareOf out'' rest) m' out) (buffer : own.buffer ∈ m'.heap.live)
    (addresses : forall p, p ∈ out'' -> kMaxValidAlignment < p ∧ p < 2 ^ 64) :
    Beside own other a b rest m' out out'' where
  different := beside.different
  sound := by
    refine ⟨beside.sound.inv.frame allocs ?_ ?_ ?_ buffer, ?_, ledger, beside.sound.addresses⟩
    · intro x low high
      by_contra changed
      have inside := mem x changed
      have apart := beside.buffers
      omega
    · exact fun u i => cached_congr (by rw [tls])
    · rw [tls]
      exact beside.sound.inv.attached
    · rw [tls]
      exact beside.sound.slots
  inv := inv
  addresses := addresses

end Beside

/-- A request that finds its cache empty leaves the caches alone, and so it does
with the memory and the other allocators. -/
theorem Found.unserved (found : Found scheme m b t bytesCount alignment r m')
    (misses : ¬ CacheServes scheme m b t bytesCount alignment) :
    m'.tls = m.tls ∧ m'.mem = m.mem ∧ forall c, c ≠ b -> m'.allocs c = m.allocs c := by
  cases found with
  | cached serves _ => exact absurd serves misses
  | popped j _ _ taken =>
      rw [taken.machine]
      exact ⟨rfl, rfl, fun c different => Function.update_of_ne different _ _⟩
  | generic => exact ⟨rfl, rfl, fun _ _ => rfl⟩

namespace Beside

/-- An allocation of `b` that does not touch the caches and the memory. -/
theorem other_allocated (beside : Beside own other a b rest m out out')
    (positive : 0 < bytesCount) (allocated : Allocated other b t bytesCount alignment out' m r m')
    (tls : m'.tls = m.tls) (mem : m'.mem = m.mem) (allocs : m'.allocs a = m.allocs a) :
    Beside own other a b rest m' out (if r = 0 then out' else r :: out') := by
  have inv := allocated.inv beside.inv positive
  have unchanged : forall x, m'.mem x ≠ m.mem x -> other.base ≤ x ∧
      x < other.base + other.bucketsCount * other.bucketSizeInBytes :=
    fun x changed => absurd (congrFun mem x) changed
  cases allocated with
  | block j o bound suitable exhausted taken =>
      have address := Sound.block_address bound taken.block
      rw [if_neg (by omega)]
      refine beside.other_step inv allocs tls unchanged ?_ ?_ ?_
      · rw [Pool.shareOf_block bound taken.block]
        exact beside.sound.ledger.congr taken.heap
          (fun u i => by rw [tls]; exact TlsPoolBucket.SameStack.refl _) rfl
      · rw [taken.heap]
        exact beside.sound.inv.buffer
      · intro q member
        rcases List.mem_cons.mp member with rfl | old
        · exact address
        · exact beside.addresses q old
  | generic exhausted =>
      by_cases refused : m.heap.answer bytesCount alignment = 0
      · rw [if_pos refused]
        exact beside.other_step (beside.inv.of_heap (GenericAllocator.mem_alloc
          beside.inv.buffer)) rfl rfl unchanged (beside.sound.ledger.refused refused)
          (GenericAllocator.mem_alloc beside.sound.inv.buffer) beside.addresses
      · have elsewhere : other.bucketsCount ≤
            other.findBucket (m.heap.answer bytesCount alignment) :=
          beside.inv.answer_elsewhere positive
        have serves := GenericAllocator.serves_of_answer refused
        rw [if_neg refused]
        refine beside.other_step inv rfl rfl unchanged ?_ ?_ ?_
        · apply (beside.sound.ledger.acquire_rest refused).rest_perm
          exact other.shareOf_cons elsewhere
        · exact GenericAllocator.mem_alloc beside.sound.inv.buffer
        · intro q member
          rcases List.mem_cons.mp member with rfl | old
          · have := serves.2.1
            exact ⟨serves.1, by omega⟩
          · exact beside.addresses q old

/-- `Alloc` of `b`, by a thread whose cache has nothing for the request. -/
theorem other_alloc (beside : Beside own other a b rest w.toMachine out out')
    (positive : 0 < bytesCount) (limit : bytesCount ≤ scheme.requestLimit)
    (valid : ValidAlignment alignment)
    (misses : ¬ CacheServes scheme w.toMachine b t bytesCount alignment)
    (result : r = (Allocator.alloc scheme w b t bytesCount alignment).1) :
    Beside own other a b rest (Allocator.alloc scheme w b t bytesCount alignment).2.toMachine out
      (if r = 0 then out' else r :: out') := by
  have count := beside.inv.represents.bucketsCount
  have searchable : Searchable scheme w.toMachine b t bytesCount alignment :=
    beside.inv.searchable_of (fun serves => absurd serves misses)
  have usable : requestIndex scheme bytesCount alignment < other.bucketsCount ->
      w.Usable b (requestIndex scheme bytesCount alignment) t := by
    intro bound
    right
    by_contra filled
    exact misses ⟨count ▸ bound, filled⟩
  rcases (allocate_found true positive limit valid searchable).unserved misses with
    ⟨tls, mem, others⟩
  have allocated := (beside.inv.allocate true valid (Nat.ne_of_gt positive) usable).1
  rw [result]
  exact beside.other_allocated positive allocated tls mem (others a beside.different.symm)

/-- `Free` through `b`, by a thread whose cache bucket is closed. -/
theorem other_free (beside : Beside own other a b rest w.toMachine out (p :: out'))
    (closed : other.findBucket p < other.bucketsCount ->
      (w.tls t (other.findBucket p)).maxElementsCount = 0) :
    Beside own other a b rest (Allocator.free w b t p).toMachine out out' := by
  have address := beside.addresses p List.mem_cons_self
  have nonzero : p ≠ 0 := by omega
  have addresses : forall q, q ∈ out' -> kMaxValidAlignment < q ∧ q < 2 ^ 64 :=
    fun q member => beside.addresses q (List.mem_cons_of_mem _ member)
  rcases beside.inv.outside_cases address.2 with elsewhere | ⟨i, o, bound, block, rfl⟩
  · have share : (other.shareOf (p :: out') rest).Perm (p :: other.shareOf out' rest) :=
      Pool.shareOf_cons elsewhere
    have mine : own.base ≠ p :=
      (beside.base_ne (share.mem_iff.mpr List.mem_cons_self)).symm
    rw [beside.inv.free_generic address.1 elsewhere]
    refine beside.other_step (beside.inv.heap_free elsewhere) rfl rfl
      (fun x changed => absurd rfl changed) ?_ ?_ addresses
    · exact (beside.sound.ledger.rest_perm share.symm).release_rest nonzero
    · exact GenericAllocator.mem_free beside.sound.inv.buffer mine
  · rw [Pool.findBucket_block bound block] at closed
    have released := (beside.inv.free_block bound block (Or.inr (closed bound))).1
    have machine := (beside.inv.free_closed bound block (closed bound)).1
    have tls : (Allocator.free w b t (other.pData i + o)).tls = w.tls := by rw [machine]; rfl
    have allocs : (Allocator.free w b t (other.pData i + o)).allocs a = w.allocs a :=
      released.confined.allocs a beside.different.symm
    refine beside.other_step released.inv allocs tls
      (fun x changed => (released.confined.mem x changed).inside) ?_ ?_ addresses
    · rw [← Pool.shareOf_block bound block]
      exact beside.sound.ledger.congr released.heap
        (fun u j => by rw [tls]; exact TlsPoolBucket.SameStack.refl _) rfl
    · rw [released.heap]
      exact beside.sound.inv.buffer

end Beside

/-! ## Creating the second allocator -/

/-- `Init` of one allocator keeps the pool of another. -/
theorem PoolInv.init_other (inv : PoolInv other b w.toMachine out') (different : b ≠ a)
    (served : w.heap.answer (bufferBytes _bucketsCount _bucketSizeInBytes) kMaxValidAlignment ≠ 0)
    (init : Initialised scheme _bucketsCount _bucketSizeInBytes a w w') :
    PoolInv other b w'.toMachine out' := by
  have serves := GenericAllocator.serves_of_answer served
  have apart := serves.2.2.2.2 _ inv.buffer
  rw [← init.pBuffer] at apart
  unfold Region.Apart at apart
  simp only at apart
  apply inv.frame (init.allocs b different)
  · intro x low high
    exact init.mem x (by omega)
  · exact fun t i => cached_congr (by rw [init.tls])
  · rw [init.tls]
    exact inv.attached
  · rw [init.heap]
    exact GenericAllocator.mem_alloc inv.buffer

/-- Allocator `b` is created while `a` is in use. -/
theorem Beside.create_other (sized : scheme.Sized) (different : b ≠ a)
    (sound : Sound own a rest w.toMachine out) (constructed : w.allocs b = Allocator.constructed)
    (wellFormed : WellFormed scheme _bucketsCount _bucketSizeInBytes)
    (served : w.heap.answer (bufferBytes _bucketsCount _bucketSizeInBytes) kMaxValidAlignment ≠ 0) :
    ∃ other : Pool scheme, Beside own other a b rest
      (Allocator.init scheme w b _bucketsCount _bucketSizeInBytes).toMachine out [] := by
  have unused : forall t i j, (w.tls t i).pBucket ≠ some (b, j) := by
    intro t i j owned
    rcases sound.slots t i with idle | serving
    · rw [idle.pBucket] at owned
      cases owned
    · rw [serving.pBucket] at owned
      exact different (congrArg Prod.fst (Option.some.inj owned)).symm
  rcases wellFormed.poolInv sized constructed unused served with ⟨other, layout, inv⟩
  have empty : (w.allocs b).bucketsCount = 0 := by rw [constructed]; rfl
  have init := init_spec (a := b) (w := w) scheme wellFormed.arguments empty
  refine ⟨other, different, ⟨sound.inv.init_other different.symm served init, ?_, ?_,
    sound.addresses⟩, inv, fun p member => absurd member List.not_mem_nil⟩
  · rw [init.tls]
    exact sound.slots
  · have ledger := sound.ledger.acquire_rest served
    rw [← layout.base] at ledger
    exact ledger.congr init.heap
      (fun t i => by rw [init.tls]; exact TlsPoolBucket.SameStack.refl _) rfl

/-- Allocator `a` is created while `b` is in use, but no thread has a cache. -/
theorem Beside.create_own (sized : scheme.Sized) (different : b ≠ a)
    (sound : Sound other b rest w.toMachine out') (idle : forall t i, (w.tls t i).Idle)
    (constructed : w.allocs a = Allocator.constructed)
    (wellFormed : WellFormed scheme _bucketsCount _bucketSizeInBytes)
    (served : w.heap.answer (bufferBytes _bucketsCount _bucketSizeInBytes) kMaxValidAlignment ≠ 0) :
    ∃ own : Pool scheme, Beside own other a b rest
      (Allocator.init scheme w a _bucketsCount _bucketSizeInBytes).toMachine [] out' := by
  have fresh : Fresh a w := ⟨constructed, idle, sound.ledger.apart⟩
  rcases wellFormed.sound sized fresh served with ⟨own, -, created⟩
  have empty : (w.allocs a).bucketsCount = 0 := by rw [constructed]; rfl
  have init := init_spec (a := a) (w := w) scheme wellFormed.arguments empty
  have share : (other.shareOf out' rest).Perm (w.heap.live.map Region.base) := by
    have poolClient : HeapHolder.pool ≠ HeapHolder.client := by decide
    have poolRest : HeapHolder.pool ≠ HeapHolder.rest := by decide
    have clientRest : HeapHolder.client ≠ HeapHolder.rest := by decide
    apply sound.ledger.custody.perm_of_three poolClient poolRest clientRest _
      (live_nodup sound.ledger.apart) (fun _ => Iff.rfl)
    intro holder notPool notClient notRest
    cases holder with
    | stack t i => exact if_pos (idle t i).pStorageL1
    | pool => exact absurd rfl notPool
    | client => exact absurd rfl notClient
    | rest => exact absurd rfl notRest
  exact ⟨own, different, ⟨created.inv, created.slots, created.ledger.rest_perm share,
    created.addresses⟩, sound.inv.init_other different served init, sound.addresses⟩

end SmMalloc
