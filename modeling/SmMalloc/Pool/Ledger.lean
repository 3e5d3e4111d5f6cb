import Mathlib.Data.List.Pairwise
import SmMalloc.Pool.Realloc

namespace SmMalloc

open Foundation

/-!
# Who keeps the blocks of the fallback heap

The pool buffer, the level 1 stacks of the cache buckets and the clients'
large blocks are all blocks of the fallback heap.  `Ledger` is a second
custody, of the addresses of these blocks; `rest` stands for blocks that other
parts of the program have.  It is what keeps a release of one of them from
ever hitting another.
-/

/-- No two regions that are apart begin at the same address. -/
theorem Region.bases_nodup {regions : List Region} (apart : regions.Pairwise Region.Apart) :
    (regions.map Region.base).Nodup := by
  rw [List.Nodup, List.pairwise_map]
  apply apart.imp
  intro r s between same
  unfold Region.Apart at between
  omega

/-- Those who keep blocks of the fallback heap. -/
inductive HeapHolder
  | pool
  | stack (t i : Nat)
  | client
  | rest
  deriving DecidableEq

variable {scheme : Partitioning}

/-- The addresses that lie in no bucket. -/
def Pool.elsewhere (pool : Pool scheme) (out : List Nat) : List Nat :=
  out.filter (fun p => decide (pool.bucketsCount ≤ pool.findBucket p))

def stackOf (self : TlsPoolBucket) : List Nat :=
  if self.pStorageL1 = 0 then [] else [self.pStorageL1]

/-- What each of them keeps. -/
def Machine.heapShares (m : Machine) (pool : Pool scheme) (rest out : List Nat) :
    HeapHolder -> List Nat
  | .pool => [pool.base]
  | .stack t i => stackOf (m.tls t i)
  | .client => pool.elsewhere out
  | .rest => rest

/-- The slots of the stack that `CreateThreadCache` asks for. -/
def stackElements (elementsNum : Nat) : Nat := (elementsNum + maxCacheItemsCount) % 2 ^ 32

/-- The stack of a cache bucket, as a block of the fallback heap. -/
def TlsPoolBucket.stackRegion (self : TlsPoolBucket) : Region :=
  ⟨self.pStorageL1, stackElements self.maxElementsCount * 4⟩

def GenericAllocator.Live (heap : GenericAllocator) (p : Nat) : Prop :=
  p ∈ heap.live.map Region.base

/-- The live blocks of the fallback heap are divided exactly, and apart.  The
stack of a cache bucket has the size that its capacity asks for. -/
structure Ledger (pool : Pool scheme) (rest : List Nat) (m : Machine) (out : List Nat) : Prop where
  apart : m.heap.live.Pairwise Region.Apart
  custody : Custody (m.heapShares pool rest out) m.heap.Live
  regions : forall t i, (m.tls t i).pStorageL1 ≠ 0 -> (m.tls t i).stackRegion ∈ m.heap.live

/-- The two cache buckets have the same stack. -/
structure TlsPoolBucket.SameStack (old new : TlsPoolBucket) : Prop where
  pStorageL1 : new.pStorageL1 = old.pStorageL1
  maxElementsCount : new.maxElementsCount = old.maxElementsCount

theorem TlsPoolBucket.SameStack.refl (self : TlsPoolBucket) : self.SameStack self := ⟨rfl, rfl⟩

theorem TlsPoolBucket.Kept.sameStack {old new : TlsPoolBucket} (kept : old.Kept new) :
    old.SameStack new := ⟨kept.pStorageL1, kept.maxElementsCount⟩

theorem TlsPoolBucket.SameStack.region {old new : TlsPoolBucket} (same : old.SameStack new) :
    new.stackRegion = old.stackRegion := by
  rw [stackRegion, stackRegion, same.pStorageL1, same.maxElementsCount]

variable {pool : Pool scheme} {m m' : Machine} {a t i p bytesCount alignment : Nat}
variable {rest out out' : List Nat}

/-! ## The calls of the fallback heap -/

namespace GenericAllocator

variable {heap : GenericAllocator}

theorem alloc_live (served : heap.answer bytesCount alignment ≠ 0) :
    (heap.alloc bytesCount alignment).2.live =
      ⟨heap.answer bytesCount alignment, bytesCount⟩ :: heap.live := by
  simp only [alloc, if_neg served]

theorem alloc_live_refused (refused : heap.answer bytesCount alignment = 0) :
    (heap.alloc bytesCount alignment).2.live = heap.live := by
  simp only [alloc, if_pos refused]

theorem answer_fresh (served : heap.answer bytesCount alignment ≠ 0) :
    ¬ heap.Live (heap.answer bytesCount alignment) := by
  intro live
  rcases List.mem_map.mp live with ⟨r, member, same⟩
  have apart := (serves_of_answer served).2.2.2.2 r member
  unfold Region.Apart at apart
  simp only [same] at apart
  omega

theorem live_alloc (served : heap.answer bytesCount alignment ≠ 0) (p : Nat) :
    (heap.alloc bytesCount alignment).2.Live p <->
      heap.Live p ∨ p = heap.answer bytesCount alignment := by
  unfold Live
  rw [alloc_live served, List.map_cons, List.mem_cons, or_comm]

theorem free_live (nonzero : p ≠ 0) :
    (heap.free p).live = heap.live.filter (fun r => r.base != p) := by
  simp only [free, if_neg nonzero]

theorem live_free (nonzero : p ≠ 0) (q : Nat) : (heap.free p).Live q <-> heap.Live q ∧ q ≠ p := by
  unfold Live
  rw [free_live nonzero]
  simp only [List.mem_map, List.mem_filter, bne_iff_ne]
  constructor
  · rintro ⟨r, ⟨member, other⟩, rfl⟩
    exact ⟨⟨r, member, rfl⟩, other⟩
  · rintro ⟨⟨r, member, rfl⟩, other⟩
    exact ⟨r, ⟨member, other⟩, rfl⟩

theorem free_zero : heap.free 0 = heap := rfl

theorem apart_free (apart : heap.live.Pairwise Region.Apart) (p : Nat) :
    (heap.free p).live.Pairwise Region.Apart := by
  unfold free
  split
  · exact apart
  · exact apart.filter _

/-- A served request that is taken back leaves the live blocks as they were. -/
theorem free_alloc_live (served : heap.answer bytesCount alignment ≠ 0) :
    ((heap.alloc bytesCount alignment).2.free (heap.answer bytesCount alignment)).live =
      heap.live := by
  rw [free_live served, alloc_live served, List.filter_cons_of_neg (by simp)]
  apply List.filter_eq_self.mpr
  intro r member
  rw [bne_iff_ne]
  intro same
  exact answer_fresh served (List.mem_map.mpr ⟨r, member, same⟩)

/-- No two live blocks have the same address. -/
theorem eq_of_base (apart : heap.live.Pairwise Region.Apart) {r s : Region}
    (member : r ∈ heap.live) (member' : s ∈ heap.live) (same : r.base = s.base) : r = s := by
  have : Std.Symm Region.Apart := ⟨fun _ _ apart => apart.symm⟩
  by_contra different
  have between : r.Apart s := apart.forall member member' different
  unfold Region.Apart at between
  omega

theorem getUsableSpace_of_live (apart : heap.live.Pairwise Region.Apart) {r : Region}
    (member : r ∈ heap.live) : heap.getUsableSpace r.base = r.size := by
  cases found : heap.live.find? (fun s => s.base == r.base) with
  | none =>
      have missing := List.find?_eq_none.mp found r member
      simp at missing
  | some s =>
      have base : s.base = r.base := by simpa using List.find?_some found
      have same : s = r := eq_of_base apart (List.mem_of_find?_eq_some found) member base
      rw [getUsableSpace, found, same]

end GenericAllocator

/-! ## Changes of the ledger -/

namespace Ledger

theorem congr (ledger : Ledger pool rest m out) (heap : m'.heap = m.heap)
    (sameStacks : forall t i, (m.tls t i).SameStack (m'.tls t i))
    (client : pool.elsewhere out' = pool.elsewhere out) : Ledger pool rest m' out' where
  apart := by rw [heap]; exact ledger.apart
  custody := by
    rw [heap]
    apply ledger.custody.congr
    intro holder
    cases holder with
    | pool => rfl
    | stack t i => simp only [Machine.heapShares, stackOf, (sameStacks t i).pStorageL1]
    | client => exact client
    | rest => rfl
  regions := by
    intro t i stored
    rw [(sameStacks t i).pStorageL1] at stored
    rw [(sameStacks t i).region, heap]
    exact ledger.regions t i stored

/-- The block of a holder of another kind is no stack of a cache bucket. -/
theorem stack_ne (ledger : Ledger pool rest m out) (holder : HeapHolder)
    (member : p ∈ m.heapShares pool rest out holder) (different : holder ≠ .stack t i)
    (stored : (m.tls t i).pStorageL1 ≠ 0) : (m.tls t i).stackRegion.base ≠ p := by
  rintro rfl
  have stack : (m.tls t i).pStorageL1 ∈ m.heapShares pool rest out (HeapHolder.stack t i) := by
    simp only [Machine.heapShares, stackOf, if_neg stored, List.mem_singleton]
  exact different (ledger.custody.holder_unique member stack)

theorem perm (ledger : Ledger pool rest m out) (perm : out'.Perm out) :
    Ledger pool rest m out' where
  apart := ledger.apart
  custody := by
    apply ledger.custody.reorder HeapHolder.client (perm.filter _)
    intro other notClient
    cases other with
    | client => exact absurd rfl notClient
    | _ => rfl
  regions := ledger.regions

/-- Served requests keep the live blocks apart. -/
theorem apart_alloc (ledger : Ledger pool rest m out)
    (served : m.heap.answer bytesCount alignment ≠ 0) :
    (m.heap.alloc bytesCount alignment).2.live.Pairwise Region.Apart := by
  rw [GenericAllocator.alloc_live served]
  exact List.pairwise_cons.mpr
    ⟨(GenericAllocator.serves_of_answer served).2.2.2.2, ledger.apart⟩

theorem apart_free (ledger : Ledger pool rest m out) (p : Nat) :
    (m.heap.free p).live.Pairwise Region.Apart := GenericAllocator.apart_free ledger.apart p

/-- The fallback heap serves a client. -/
theorem acquire_client (ledger : Ledger pool rest m out)
    (served : m.heap.answer bytesCount alignment ≠ 0)
    (outside : pool.bucketsCount ≤ pool.findBucket (m.heap.answer bytesCount alignment)) :
    Ledger pool rest { m with heap := (m.heap.alloc bytesCount alignment).2 }
      (m.heap.answer bytesCount alignment :: out) where
  apart := ledger.apart_alloc served
  custody := by
    apply ledger.custody.acquire HeapHolder.client (GenericAllocator.answer_fresh served)
    · apply List.Perm.of_eq
      simp [Machine.heapShares, Pool.elsewhere, outside]
    · intro other notClient
      cases other with
      | client => exact absurd rfl notClient
      | _ => rfl
    · exact GenericAllocator.live_alloc served
  regions := fun t i stored => GenericAllocator.mem_alloc (ledger.regions t i stored)

/-- A client gives a block of the fallback heap back. -/
theorem release_client (ledger : Ledger pool rest m (p :: out)) (nonzero : p ≠ 0)
    (outside : pool.bucketsCount ≤ pool.findBucket p) :
    Ledger pool rest { m with heap := m.heap.free p } out where
  apart := ledger.apart_free p
  custody := by
    apply ledger.custody.release HeapHolder.client p
    · apply List.Perm.of_eq
      simp [Machine.heapShares, Pool.elsewhere, outside]
    · intro other notClient
      cases other with
      | client => exact absurd rfl notClient
      | _ => rfl
    · exact GenericAllocator.live_free nonzero
  regions := by
    intro t i stored
    apply GenericAllocator.mem_free (ledger.regions t i stored)
    apply ledger.stack_ne HeapHolder.client _ (by intro h; cases h) stored
    simp [Machine.heapShares, Pool.elsewhere, outside]

/-- The order in which the blocks of other parts of the program are listed does not matter. -/
theorem rest_perm {rest' : List Nat} (ledger : Ledger pool rest m out) (perm : rest'.Perm rest) :
    Ledger pool rest' m out where
  apart := ledger.apart
  custody := by
    apply ledger.custody.reorder HeapHolder.rest perm
    intro other notRest
    cases other with
    | rest => exact absurd rfl notRest
    | _ => rfl
  regions := ledger.regions

/-- A request that is refused leaves the live blocks as they are. -/
theorem refused (ledger : Ledger pool rest m out)
    (null : m.heap.answer bytesCount alignment = 0) :
    Ledger pool rest { m with heap := (m.heap.alloc bytesCount alignment).2 } out := by
  have same := GenericAllocator.alloc_live_refused null
  refine ⟨?_, ?_, fun t i stored => GenericAllocator.mem_alloc (ledger.regions t i stored)⟩
  · rw [same]; exact ledger.apart
  · have live : (m.heap.alloc bytesCount alignment).2.Live = m.heap.Live := by
      unfold GenericAllocator.Live
      rw [same]
    rw [live]
    exact ledger.custody

/-- The fallback heap serves another part of the program. -/
theorem acquire_rest (ledger : Ledger pool rest m out)
    (served : m.heap.answer bytesCount alignment ≠ 0) :
    Ledger pool (m.heap.answer bytesCount alignment :: rest)
      { m with heap := (m.heap.alloc bytesCount alignment).2 } out where
  apart := ledger.apart_alloc served
  custody := by
    apply ledger.custody.acquire HeapHolder.rest (GenericAllocator.answer_fresh served)
    · exact List.Perm.refl _
    · intro other notRest
      cases other with
      | rest => exact absurd rfl notRest
      | _ => rfl
    · exact GenericAllocator.live_alloc served
  regions := fun t i stored => GenericAllocator.mem_alloc (ledger.regions t i stored)

/-- Another part of the program gives a block of the fallback heap back. -/
theorem release_rest (ledger : Ledger pool (p :: rest) m out) (nonzero : p ≠ 0) :
    Ledger pool rest { m with heap := m.heap.free p } out where
  apart := ledger.apart_free p
  custody := by
    apply ledger.custody.release HeapHolder.rest p
    · exact List.Perm.refl _
    · intro other notRest
      cases other with
      | rest => exact absurd rfl notRest
      | _ => rfl
    · exact GenericAllocator.live_free nonzero
  regions := by
    intro t i stored
    apply GenericAllocator.mem_free (ledger.regions t i stored)
    apply ledger.stack_ne HeapHolder.rest _ (by intro h; cases h) stored
    exact List.mem_cons_self

/-- A cache bucket without a stack gets one. -/
theorem acquire_stack (ledger : Ledger pool rest m out) {self : TlsPoolBucket}
    (none : (m.tls t i).pStorageL1 = 0) (served : m.heap.answer bytesCount alignment ≠ 0)
    (stack : self.stackRegion = ⟨m.heap.answer bytesCount alignment, bytesCount⟩) :
    Ledger pool rest
      ({ m with heap := (m.heap.alloc bytesCount alignment).2 }.setTls t i self) out where
  apart := ledger.apart_alloc served
  custody := by
    apply ledger.custody.acquire (HeapHolder.stack t i) (GenericAllocator.answer_fresh served)
    · apply List.Perm.of_eq
      have address : self.pStorageL1 = m.heap.answer bytesCount alignment :=
        congrArg Region.base stack
      simp only [Machine.heapShares, stackOf, Machine.setTls_same, if_pos none, address,
        if_neg served]
    · intro other notStack
      cases other with
      | stack t' i' =>
          have different : ¬ (t' = t ∧ i' = i) := by
            rintro ⟨rfl, rfl⟩
            exact notStack rfl
          simp only [Machine.heapShares, Machine.setTls_of_ne _ _ _ _ different]
      | _ => rfl
    · exact GenericAllocator.live_alloc served
  regions := by
    intro t' i' stored
    by_cases same : t' = t ∧ i' = i
    · rcases same with ⟨rfl, rfl⟩
      rw [Machine.setTls_same, stack]
      change _ ∈ (m.heap.alloc bytesCount alignment).2.live
      rw [GenericAllocator.alloc_live served]
      exact List.mem_cons_self
    · rw [Machine.setTls_of_ne _ _ _ _ same] at stored ⊢
      exact GenericAllocator.mem_alloc (ledger.regions t' i' stored)

/-- A cache bucket gives its stack back. -/
theorem release_stack (ledger : Ledger pool rest m out) {self : TlsPoolBucket}
    (none : self.pStorageL1 = 0) :
    Ledger pool rest
      ({ m with heap := m.heap.free (m.tls t i).pStorageL1 }.setTls t i self) out where
  apart := ledger.apart_free _
  custody := by
    by_cases zero : (m.tls t i).pStorageL1 = 0
    · rw [zero, GenericAllocator.free_zero]
      apply ledger.custody.congr
      intro holder
      cases holder with
      | stack t' i' =>
          by_cases same : t' = t ∧ i' = i
          · rcases same with ⟨rfl, rfl⟩
            simp only [Machine.heapShares, stackOf, Machine.setTls_same, none, zero]
          · simp only [Machine.heapShares, Machine.setTls_of_ne _ _ _ _ same]
      | _ => rfl
    · apply ledger.custody.release (HeapHolder.stack t i) (m.tls t i).pStorageL1
      · apply List.Perm.of_eq
        simp only [Machine.heapShares, stackOf, Machine.setTls_same, none, if_true, if_neg zero]
      · intro other notStack
        cases other with
        | stack t' i' =>
            have different : ¬ (t' = t ∧ i' = i) := by
              rintro ⟨rfl, rfl⟩
              exact notStack rfl
            simp only [Machine.heapShares, Machine.setTls_of_ne _ _ _ _ different]
        | _ => rfl
      · exact GenericAllocator.live_free zero
  regions := by
    intro t' i' stored
    by_cases same : t' = t ∧ i' = i
    · rcases same with ⟨rfl, rfl⟩
      rw [Machine.setTls_same] at stored
      exact absurd none stored
    · rw [Machine.setTls_of_ne _ _ _ _ same] at stored ⊢
      by_cases zero : (m.tls t i).pStorageL1 = 0
      · rw [zero, GenericAllocator.free_zero]
        exact ledger.regions t' i' stored
      · apply GenericAllocator.mem_free (ledger.regions t' i' stored)
        apply ledger.stack_ne (HeapHolder.stack t i) _ _ stored
        · simp only [Machine.heapShares, stackOf, if_neg zero, List.mem_singleton]
        · intro equal
          injection equal with sameThread sameIndex
          exact same ⟨sameThread.symm, sameIndex.symm⟩

end Ledger

end SmMalloc
