import SmMalloc.Pool.CentralList

namespace SmMalloc

open Foundation

/-!
# The thread caches keep the invariant

Taking a block from a cache level and putting one there exchange it between
the cache bucket and the outside.  A flush exchanges half of level 1 with the
central list.  In every case the one bucket concerned is accounted for with
`Custody.transfer`, and the other buckets with `PoolInv.replace`.
-/

variable {scheme : Partitioning} {pool : Pool scheme} {m : Machine} {w : World} {a i t o : Nat}
variable {central client client' out out' : List Nat}

/-! ## Contents of a cache bucket -/

namespace TlsPoolBucket

variable {self : TlsPoolBucket}

theorem stack_update (stack : Nat -> UInt32) (n : Nat) (offset : UInt32) :
    (List.range (n + 1)).map (fun k => (Function.update stack n offset k).toNat) =
      (List.range n).map (fun k => (stack k).toNat) ++ [offset.toNat] := by
  rw [List.range_succ, List.map_append, List.map_singleton, Function.update_self]
  congr 1
  apply List.map_congr_left
  intro k member
  have below := List.mem_range.mp member
  rw [Function.update_of_ne (by omega)]

theorem offsets_pushL0 (self : TlsPoolBucket) (offset : UInt32) :
    ({ self with
        storageL0 := Function.update self.storageL0 self.numElementsL0 offset
        numElementsL0 := self.numElementsL0 + 1 } : TlsPoolBucket).offsets.Perm
      (offset.toNat :: self.offsets) := by
  unfold offsets offsetsL0
  simp only
  rw [stack_update, List.append_assoc, List.singleton_append]
  exact List.perm_middle

theorem offsets_pushL1 (self : TlsPoolBucket) (offset : UInt32) :
    ({ self with
        storageL1 := Function.update self.storageL1 self.numElementsL1 offset
        numElementsL1 := self.numElementsL1 + 1 } : TlsPoolBucket).offsets.Perm
      (offset.toNat :: self.offsets) := by
  unfold offsets offsetsL1
  simp only
  rw [stack_update, ← List.append_assoc]
  exact List.perm_append_singleton _ _

theorem offsets_popL0 (nonempty : self.numElementsL0 > 0) :
    self.offsets.Perm ((self.storageL0 (self.numElementsL0 - 1)).toNat ::
      ({ self with numElementsL0 := self.numElementsL0 - 1 } : TlsPoolBucket).offsets) := by
  unfold offsets offsetsL0
  simp only
  have count : self.numElementsL0 = self.numElementsL0 - 1 + 1 := by omega
  conv_lhs => rw [count, List.range_succ]
  rw [List.map_append, List.map_singleton, List.append_assoc, List.singleton_append]
  exact List.perm_middle

/-- Level 1 is cut in two by its lowest `keep` slots. -/
theorem offsetsL1_split (self : TlsPoolBucket) {keep : Nat} (le : keep ≤ self.numElementsL1) :
    self.offsetsL1 = ({ self with numElementsL1 := keep } : TlsPoolBucket).offsetsL1 ++
      (List.range' keep (self.numElementsL1 - keep)).map (fun k => (self.storageL1 k).toNat) := by
  unfold offsetsL1
  simp only
  rw [← List.map_append, List.range_eq_range', List.range_eq_range']
  congr 1
  have split := List.range'_append_1 (s := 0) (m := keep) (n := self.numElementsL1 - keep)
  rw [Nat.zero_add, Nat.add_sub_cancel' le] at split
  exact split.symm

theorem offsets_popL1 (nonempty : self.numElementsL1 > 0) :
    self.offsets.Perm ((self.storageL1 (self.numElementsL1 - 1)).toNat ::
      ({ self with numElementsL1 := self.numElementsL1 - 1 } : TlsPoolBucket).offsets) := by
  have split := offsetsL1_split self (Nat.sub_le self.numElementsL1 1)
  have one : self.numElementsL1 - (self.numElementsL1 - 1) = 1 := by omega
  rw [one, List.range'_one, List.map_singleton] at split
  rw [offsets, split, ← List.append_assoc]
  exact List.perm_append_singleton _ _

/-- The blocks that a flush of `count` blocks hands back. -/
def returned (self : TlsPoolBucket) (count : Nat) : List Nat :=
  (List.range' (self.numElementsL1 - count) count).map (fun k => (self.storageL1 k).toNat)

theorem offsets_returned {count : Nat} (le : count ≤ self.numElementsL1) :
    self.offsets = ({ self with numElementsL1 := self.numElementsL1 - count } :
      TlsPoolBucket).offsets ++ self.returned count := by
  have split := offsetsL1_split self (Nat.sub_le self.numElementsL1 count)
  rw [Nat.sub_sub_self le] at split
  rw [offsets, split, ← List.append_assoc]
  rfl

theorem returned_succ (self : TlsPoolBucket) (count : Nat) :
    self.returned (count + 1) = (self.storageL1 (self.numElementsL1 - (count + 1))).toNat ::
      (List.range' (self.numElementsL1 - (count + 1) + 1) count).map
        (fun k => (self.storageL1 k).toNat) := rfl

/-- They stand at the end of level 1. -/
theorem returned_eq_drop {count : Nat} (le : count ≤ self.numElementsL1) :
    self.returned count = self.offsetsL1.drop (self.numElementsL1 - count) := by
  have split := offsetsL1_split self (Nat.sub_le self.numElementsL1 count)
  have length : ({ self with numElementsL1 := self.numElementsL1 - count } :
      TlsPoolBucket).offsetsL1.length = self.numElementsL1 - count := by
    rw [offsetsL1, List.length_map, List.length_range]
  rw [Nat.sub_sub_self le] at split
  rw [split, List.drop_append_of_le_length (Nat.le_of_eq length.symm),
    List.drop_of_length_le (Nat.le_of_eq length), List.nil_append]
  rfl

theorem offsets_length (self : TlsPoolBucket) : self.offsets.length = self.getElementsCount := by
  simp only [offsets, offsetsL0, offsetsL1, List.length_append, List.length_map, List.length_range,
    getElementsCount]
  omega

end TlsPoolBucket

/-! ## Exchanges between a cache bucket and the outside -/

theorem cached_of_owner (owner : (m.tls t i).pBucket = some (a, i)) :
    m.cached a i t = (m.tls t i).offsets := by
  rw [Machine.cached, if_pos owner]

theorem cached_setTls_of_ne {u : Nat} (self : TlsPoolBucket) (other : u ≠ t) :
    (m.setTls t i self).cached a i u = m.cached a i u := by
  apply cached_congr
  rw [Machine.setTls_of_ne]
  exact fun same => other same.1

theorem Machine.setTls_bucket (m : Machine) (t i : Nat) (self : TlsPoolBucket) (b j : Nat) :
    (m.setTls t i self).bucket b j = m.bucket b j := rfl

theorem Machine.setTls_threads {u : Nat} (self : TlsPoolBucket) (other : u ≠ t) :
    (m.setTls t i self).tls u = m.tls u := by
  funext j
  rw [Machine.setTls_of_ne]
  exact fun same => other same.1

theorem TlsPoolBucket.Kept.setTls {self : TlsPoolBucket} (kept : (m.tls t i).Kept self) (j : Nat) :
    (m.tls t j).Kept ((m.setTls t i self).tls t j) := by
  by_cases same : j = i
  · subst same
    rw [Machine.setTls_same]
    exact kept
  · rw [Machine.setTls_of_ne _ _ _ _ (fun equal => same equal.2)]
    exact TlsPoolBucket.Kept.refl _

/-- A cache bucket that stays attached to its bucket. -/
theorem PoolInv.attached_setTls (inv : PoolInv pool a m out) {self : TlsPoolBucket}
    (here : forall k, self.pBucket = some (a, k) -> k = i ∧ Attached pool i self) (u j k : Nat)
    (owned : ((m.setTls t i self).tls u j).pBucket = some (a, k)) :
    k = j ∧ Attached pool j ((m.setTls t i self).tls u j) := by
  by_cases same : u = t ∧ j = i
  · rcases same with ⟨rfl, rfl⟩
    rw [Machine.setTls_same] at owned ⊢
    exact here k owned
  · rw [Machine.setTls_of_ne _ _ _ _ same] at owned ⊢
    exact inv.attached u j k owned

/-- A cache bucket and the outside exchange blocks. -/
theorem BucketInv.exchange (inv : BucketInv pool m a i central client) {self : TlsPoolBucket}
    (owner : (m.tls t i).pBucket = some (a, i)) (kept : self.pBucket = some (a, i))
    (perm : (self.offsets ++ client').Perm ((m.tls t i).offsets ++ client)) :
    BucketInv pool (m.setTls t i self) a i central client' where
  linked := inv.linked
  custody := by
    apply inv.custody.transfer (Holder.cache t) Holder.client (by intro h; cases h)
    · change ((m.setTls t i self).cached a i t ++ client').Perm (m.cached a i t ++ client)
      rw [cached_of_owner owner, cached_of_owner (by rw [Machine.setTls_same]; exact kept),
        Machine.setTls_same]
      exact perm
    · intro other notCache notClient
      cases other with
      | central => rfl
      | cache u => exact cached_setTls_of_ne self (fun same => notCache (congrArg _ same))
      | client => exact absurd rfl notClient

/-- Replacing the contents of one cache bucket, in exchange with the outside. -/
theorem PoolInv.exchange (inv : PoolInv pool a m out) {self : TlsPoolBucket}
    (owner : (m.tls t i).pBucket = some (a, i))
    (pBucket : self.pBucket = (m.tls t i).pBucket)
    (pBucketData : self.pBucketData = (m.tls t i).pBucketData)
    (pStorageL1 : self.pStorageL1 = (m.tls t i).pStorageL1)
    (perm : (self.offsets ++ pool.offsets out' i).Perm ((m.tls t i).offsets ++ pool.offsets out i))
    (elsewhere : forall j, j ≠ i -> pool.offsets out' j = pool.offsets out j) :
    PoolInv pool a (m.setTls t i self) out' := by
  have attached := (inv.attached t i i owner).2
  have keeps : self.pBucket = some (a, i) := pBucket.trans owner
  apply inv.replace i
  · exact inv.represents
  · intro j _; rfl
  · intro x changed
    exact absurd rfl changed
  · intro u j other
    rw [Machine.setTls_of_ne]
    exact fun same => other same.2
  · intro u j owned
    refine inv.attached_setTls ?_ u i j owned
    intro k here
    refine ⟨(inv.attached t i k (pBucket.symm.trans here)).1, attached.bound,
      pBucketData.trans attached.pBucketData, ?_⟩
    rw [pStorageL1]
    exact attached.pStorageL1
  · rfl
  · exact elsewhere
  · rcases inv.buckets i attached.bound with ⟨central, bucket⟩
    exact ⟨central, bucket.exchange owner keeps perm⟩

/-! ## Taking a block from the cache -/

/-- The cache bucket of thread `t` may serve bucket `i` of allocator `a`: it
belongs to that bucket, or there is nothing in it. -/
def Machine.Usable (m : Machine) (a i t : Nat) : Prop :=
  (m.tls t i).pBucket = some (a, i) ∨ (m.tls t i).getElementsCount = 0

theorem PoolInv.popCache (inv : PoolInv pool a m out) {self : TlsPoolBucket} {offset : UInt32}
    (owner : (m.tls t i).pBucket = some (a, i)) (kept : (m.tls t i).Kept self)
    (perm : (m.tls t i).offsets.Perm (offset.toNat :: self.offsets)) :
    Taken pool a t i offset.toNat out m (m.setTls t i self) := by
  have bound := (inv.attached t i i owner).2.bound
  rcases inv.buckets i bound with ⟨central, bucket⟩
  have cached : offset.toNat ∈ m.cached a i t := by
    rw [cached_of_owner owner]
    exact perm.mem_iff.mpr List.mem_cons_self
  have block := bucket.isBlock_cached cached
  refine ⟨block, bucket.cached_client cached, ?_, fun _ _ => rfl, ?_, ?_, ?_, rfl, rfl⟩
  · apply inv.exchange owner kept.pBucket kept.pBucketData kept.pStorageL1
    · rw [Pool.offsets_cons_block bound block]
      exact List.perm_middle.trans (perm.symm.append_right _)
    · intro j other
      exact elsewhere_cons bound block other out
  · intro u other
    exact Machine.setTls_threads self other
  · exact kept.setTls
  · exact fun j other => Machine.setTls_of_ne _ _ _ _ (fun equal => other equal.2)

theorem PoolInv.data_ne_zero (inv : PoolInv pool a m out)
    (owner : (m.tls t i).pBucket = some (a, i)) : (m.tls t i).pBucketData ≠ 0 := by
  have readable := pool.pData_readable i
  rw [(inv.attached t i i owner).2.pBucketData]
  unfold kMaxValidAlignment at readable
  omega

theorem allocFromCache_empty (empty : (w.tls t i).getElementsCount = 0) :
    Allocator.allocFromCache w t i = (0, w) := by
  have level0 : ¬ (w.tls t i).numElementsL0 > 0 := by
    unfold TlsPoolBucket.getElementsCount at empty
    omega
  have level1 : ¬ (w.tls t i).numElementsL1 > 0 := by
    unfold TlsPoolBucket.getElementsCount at empty
    omega
  simp only [Allocator.allocFromCache, if_neg level0, if_neg level1]

/-- `AllocFromCache` -/
theorem PoolInv.allocFromCache (inv : PoolInv pool a w.toMachine out)
    (usable : w.Usable a i t) :
    (Allocator.allocFromCache w t i = (0, w) ∧ (w.tls t i).getElementsCount = 0) ∨
      ∃ o, (Allocator.allocFromCache w t i).1 = pool.pData i + o ∧
        Taken pool a t i o out w.toMachine (Allocator.allocFromCache w t i).2.toMachine ∧
        (Allocator.allocFromCache w t i).2.failed = w.failed := by
  by_cases empty : (w.tls t i).getElementsCount = 0
  · exact Or.inl ⟨allocFromCache_empty empty, empty⟩
  · right
    have owner : (w.tls t i).pBucket = some (a, i) := usable.resolve_right empty
    have data := (inv.attached t i i owner).2.pBucketData
    have checked : decide ((w.tls t i).pBucketData ≠ 0) = true :=
      decide_eq_true (inv.data_ne_zero owner)
    by_cases level0 : (w.tls t i).numElementsL0 > 0
    · have result : Allocator.allocFromCache w t i =
          ((w.tls t i).pBucketData +
              ((w.tls t i).storageL0 ((w.tls t i).numElementsL0 - 1)).toNat,
            w.setTls t i { w.tls t i with numElementsL0 := (w.tls t i).numElementsL0 - 1 }) := by
        simp only [Allocator.allocFromCache, if_pos level0, World.check_true w checked]
      rw [result]
      refine ⟨_, congrArg (· + _) data, ?_, rfl⟩
      apply inv.popCache owner _ (TlsPoolBucket.offsets_popL0 level0)
      refine ⟨rfl, rfl, rfl, rfl, ?_, fun _ _ => rfl⟩
      rintro ⟨levelL0, levelL1, room, closed, slots⟩
      refine ⟨Nat.le_trans (Nat.sub_le _ _) levelL0, levelL1, room, fun zero => ?_, slots⟩
      exact Nat.sub_eq_zero_of_le (Nat.le_succ_of_le (Nat.le_of_eq (closed zero)))
    · have level1 : (w.tls t i).numElementsL1 > 0 := by
        unfold TlsPoolBucket.getElementsCount at empty; omega
      have noL0 : decide ((w.tls t i).numElementsL0 = 0) = true := decide_eq_true (by omega)
      have result : Allocator.allocFromCache w t i =
          ((w.tls t i).pBucketData +
              ((w.tls t i).storageL1 ((w.tls t i).numElementsL1 - 1)).toNat,
            w.setTls t i { w.tls t i with numElementsL1 := (w.tls t i).numElementsL1 - 1 }) := by
        simp only [Allocator.allocFromCache, if_neg level0, if_pos level1,
          World.check_true w checked, World.check_true w noL0]
      rw [result]
      refine ⟨_, congrArg (· + _) data, ?_, rfl⟩
      apply inv.popCache owner _ (TlsPoolBucket.offsets_popL1 level1)
      refine ⟨rfl, rfl, rfl, rfl, ?_, fun _ _ => rfl⟩
      rintro ⟨levelL0, levelL1, room, closed, slots⟩
      exact ⟨levelL0, Nat.le_trans (Nat.sub_le _ _) levelL1, room, closed, slots⟩

/-! ## Putting a block into the cache -/

theorem PoolInv.pushCache (inv : PoolInv pool a m ((pool.pData i + o) :: out))
    (block : pool.IsBlock i o) {self : TlsPoolBucket}
    (owner : (m.tls t i).pBucket = some (a, i))
    (pBucket : self.pBucket = (m.tls t i).pBucket)
    (pBucketData : self.pBucketData = (m.tls t i).pBucketData)
    (pStorageL1 : self.pStorageL1 = (m.tls t i).pStorageL1)
    (perm : self.offsets.Perm (o :: (m.tls t i).offsets)) :
    PoolInv pool a (m.setTls t i self) out := by
  have bound := (inv.attached t i i owner).2.bound
  apply inv.exchange owner pBucket pBucketData pStorageL1
  · rw [Pool.offsets_cons_block bound block]
    exact (perm.append_right _).trans List.perm_middle.symm
  · intro j other
    exact (elsewhere_cons bound block other out).symm

/-- A push that stays within the stack. -/
theorem World.pushL1_eq (backed : (w.tls t i).Backed w.heap)
    (inside : (w.tls t i).numElementsL1 < (w.tls t i).maxElementsCount + maxCacheItemsCount)
    (offset : UInt32) :
    w.pushL1 t i offset = w.setTls t i { w.tls t i with
      storageL1 := Function.update (w.tls t i).storageL1 (w.tls t i).numElementsL1 offset
      numElementsL1 := (w.tls t i).numElementsL1 + 1 } := by
  have room := backed.room
  have fits : 4 * ((w.tls t i).numElementsL1 + 1) ≤
      w.heap.getUsableSpace (w.tls t i).pStorageL1 := by omega
  simp only [World.pushL1, if_neg backed.stored, if_pos fits]

@[simp] theorem World.pushL1_failed (w : World) (t i : Nat) (offset : UInt32) :
    (w.pushL1 t i offset).failed = w.failed := by
  unfold World.pushL1
  by_cases stored : (w.tls t i).pStorageL1 = 0
  · simp [stored]
  · simp only [if_neg stored]
    split <;> rfl

/-- What a release by thread `t` leaves behind. -/
structure Released (pool : Pool scheme) (a t : Nat) (out : List Nat) (m m' : Machine) : Prop where
  inv : PoolInv pool a m' out
  confined : Confined pool a t out m m'
  slots : forall j, (m.tls t j).Kept (m'.tls t j)
  heap : m'.heap = m.heap

theorem Released.of_setTls {self : TlsPoolBucket} (inv : PoolInv pool a (m.setTls t i self) out)
    (kept : (m.tls t i).Kept self) : Released pool a t out m (m.setTls t i self) where
  inv := inv
  confined := Confined.of_mem_eq (fun _ _ => rfl) (fun _ other => Machine.setTls_threads self other)
    rfl
  slots := kept.setTls
  heap := rfl

/-! ## Flushing level 1 -/

/-- The machine after `ReturnL1CacheToMaster` handed back `count + 1` blocks. -/
def Machine.flush (m : Machine) (a i t count : Nat) : Machine :=
  let self := m.tls t i
  let first := self.numElementsL1 - (count + 1)
  let pHead := self.pBucketData + (self.storageL1 first).toNat
  let chain := TlsPoolBucket.linkChain self.pBucketData self.storageL1 count (first + 1) 0xFFFFFF
    pHead m.mem
  (PoolBucket.freeInterval { m with mem := chain.1 } a i pHead chain.2).setTls t i
    { self with numElementsL1 := first }

/-- The chain that a flush builds consists of distinct blocks of the cache. -/
theorem BucketInv.returned (inv : BucketInv pool m a i central client) {count : Nat}
    (owner : (m.tls t i).pBucket = some (a, i)) (le : count ≤ (m.tls t i).numElementsL1) :
    ((m.tls t i).returned count).Nodup ∧
      forall o, o ∈ (m.tls t i).returned count -> o ∈ m.cached a i t := by
  have nodup := inv.custody.nodup (Holder.cache t)
  have cached : m.cached a i t = (m.tls t i).offsets := cached_of_owner owner
  change (m.cached a i t).Nodup at nodup
  rw [cached, TlsPoolBucket.offsets_returned le] at nodup
  refine ⟨(List.nodup_append'.mp nodup).2.1, ?_⟩
  intro o member
  rw [cached, TlsPoolBucket.offsets_returned le]
  exact List.mem_append_right _ member

/-- Memory after a flush: the blocks are linked, the last one to the old head. -/
def Machine.flushMem (m : Machine) (a i t count : Nat) : Memory :=
  let self := m.tls t i
  let first := self.numElementsL1 - (count + 1)
  let pHead := self.pBucketData + (self.storageL1 first).toNat
  let chain := TlsPoolBucket.linkChain self.pBucketData self.storageL1 count (first + 1) 0xFFFFFF
    pHead m.mem
  TaggedIndex.store chain.1 chain.2 (m.bucket a i).head

theorem Machine.flush_eq (m : Machine) (a i t count : Nat) :
    m.flush a i t count = ({ m with mem := m.flushMem a i t count }.setBucket a i
      { m.bucket a i with
        head := ⟨(m.bucket a i).globalTag, UInt32.ofNat (sizeSub ((m.tls t i).pBucketData +
          ((m.tls t i).storageL1 ((m.tls t i).numElementsL1 - (count + 1))).toNat)
          (m.bucket a i).pData)⟩
        globalTag := (m.bucket a i).globalTag + 1 }).setTls t i { m.tls t i with
          numElementsL1 := (m.tls t i).numElementsL1 - (count + 1) } := rfl

/-- The returned blocks are linked as they stand in the stack, and only their
first eight bytes have changed. -/
theorem Machine.flushMem_threaded (m : Machine) {pData count : Nat}
    (data : (m.tls t i).pBucketData = pData)
    (apart : ((m.tls t i).returned (count + 1)).Pairwise (fun x y => x + 8 ≤ y ∨ y + 8 ≤ x))
    (running : forall value : TaggedIndex,
      value.offset.toNat ∈ (m.tls t i).returned (count + 1) -> value ≠ TaggedIndex.invalid) :
    TaggedIndex.kind.Threaded (linksAt (m.flushMem a i t count) pData)
        ((m.tls t i).returned (count + 1)) (m.bucket a i).head ∧
      forall x, (forall o, o ∈ (m.tls t i).returned (count + 1) ->
        x < pData + o ∨ pData + o + 8 ≤ x) -> m.flushMem a i t count x = m.mem x := by
  have built := linkChain_threaded pData (m.tls t i).storageL1 (m.bucket a i).head count
    ((m.tls t i).numElementsL1 - (count + 1) + 1) 0xFFFFFF
    ((m.tls t i).storageL1 ((m.tls t i).numElementsL1 - (count + 1))).toNat m.mem
    (by rw [← TlsPoolBucket.returned_succ]; exact apart)
    (by
      intro j value low high named
      apply running value
      rw [TlsPoolBucket.returned_succ, named]
      apply List.mem_cons_of_mem
      exact List.mem_map_of_mem (f := fun k => ((m.tls t i).storageL1 k).toNat)
        (List.mem_range'_1.mpr ⟨low, high⟩))
  simp only [← TlsPoolBucket.returned_succ] at built
  simp only [Machine.flushMem, data]
  exact built

theorem BucketInv.flushMem (bucket : BucketInv pool m a i central client) {count : Nat}
    (bound : i < pool.bucketsCount) (owner : (m.tls t i).pBucket = some (a, i))
    (data : (m.tls t i).pBucketData = pool.pData i)
    (le : count + 1 ≤ (m.tls t i).numElementsL1) :
    TaggedIndex.kind.Threaded (linksAt (m.flushMem a i t count) (pool.pData i))
        ((m.tls t i).returned (count + 1)) (m.bucket a i).head ∧
      forall x, (forall o, o ∈ (m.tls t i).returned (count + 1) ->
        x < pool.pData i + o ∨ pool.pData i + o + 8 ≤ x) ->
        m.flushMem a i t count x = m.mem x := by
  have positive := Pool.element_pos bound
  rcases bucket.returned owner le with ⟨nodup, inCache⟩
  have blocks : forall o, o ∈ (m.tls t i).returned (count + 1) -> pool.IsBlock i o :=
    fun o member => bucket.isBlock_cached (inCache o member)
  have apart : ((m.tls t i).returned (count + 1)).Pairwise
      (fun x y => x + 8 ≤ y ∨ y + 8 ≤ x) := by
    apply List.Pairwise.imp_of_mem _ nodup
    intro x y inX inY different
    have := (blocks x inX).apart (blocks y inY) different
    omega
  exact m.flushMem_threaded data apart
    (fun _ member => Pool.ne_invalid_of_block bound (blocks _ member) rfl)

/-- The returned blocks are on the central list, before the others. -/
theorem BucketInv.flush (bucket : BucketInv pool m a i central client) {count : Nat}
    (bound : i < pool.bucketsCount) (owner : (m.tls t i).pBucket = some (a, i))
    (data : (m.tls t i).pBucketData = pool.pData i)
    (bucketData : (m.bucket a i).pData = pool.pData i)
    (le : count + 1 ≤ (m.tls t i).numElementsL1) :
    BucketInv pool (m.flush a i t count) a i ((m.tls t i).returned (count + 1) ++ central)
      client := by
  rcases bucket.flushMem bound owner data le with ⟨threaded, frame⟩
  rcases bucket.returned owner le with ⟨-, inCache⟩
  have firstBlock := bucket.isBlock_cached (inCache _ (by
    rw [TlsPoolBucket.returned_succ]
    exact List.mem_cons_self))
  rw [Machine.flush_eq]
  constructor
  · rw [Machine.setTls_bucket, Machine.setBucket_bucket_same]
    apply bucket.linked_attach _ bound _ threaded _ frame
    · exact fun o member =>
        ⟨bucket.isBlock_cached (inCache o member), bucket.cached_central (inCache o member)⟩
    · rw [data, bucketData, Pool.offset_of_block bound firstBlock]
      rfl
  · apply bucket.custody.transfer Holder.central (Holder.cache t) (by intro h; cases h)
    · change ((m.tls t i).returned (count + 1) ++ central ++ Machine.cached _ a i t).Perm
        (central ++ m.cached a i t)
      rw [cached_of_owner owner, cached_of_owner (by rw [Machine.setTls_same]; exact owner),
        Machine.setTls_same, TlsPoolBucket.offsets_returned le]
      rw [List.append_assoc]
      exact List.perm_append_comm.trans (List.Perm.of_eq (List.append_assoc _ _ _))
    · intro other notCentral notCache
      cases other with
      | central => exact absurd rfl notCentral
      | cache u => exact cached_setTls_of_ne _ (fun same => notCache (congrArg _ same))
      | client => rfl

/-- A flush hands blocks of the cache back to the central list. -/
theorem PoolInv.flush (inv : PoolInv pool a m out) {count : Nat}
    (owner : (m.tls t i).pBucket = some (a, i)) (le : count + 1 ≤ (m.tls t i).numElementsL1) :
    Released pool a t out m (m.flush a i t count) := by
  have attached := (inv.attached t i i owner).2
  have bound := attached.bound
  have data : (m.tls t i).pBucketData = pool.pData i := attached.pBucketData
  have bucketData : (m.bucket a i).pData = pool.pData i := inv.represents.pData i bound
  have positive := Pool.element_pos bound
  rcases inv.buckets i bound with ⟨central, bucket⟩
  rcases bucket.returned owner le with ⟨-, inCache⟩
  have changed : forall x, m.flushMem a i t count x ≠ m.mem x ->
      ∃ o, o ∈ (m.tls t i).returned (count + 1) ∧ pool.pData i + o ≤ x ∧
        x < pool.pData i + o + 8 := by
    intro x different
    by_contra untouched
    apply different
    apply (bucket.flushMem bound owner data le).2
    intro o member
    by_contra inside
    exact untouched ⟨o, member, by omega, by omega⟩
  have kept : (m.tls t i).Kept { m.tls t i with
      numElementsL1 := (m.tls t i).numElementsL1 - (count + 1) } := by
    refine ⟨rfl, rfl, rfl, rfl, ?_, fun _ _ => rfl⟩
    rintro ⟨levelL0, levelL1, room, closed, slots⟩
    exact ⟨levelL0, Nat.le_trans (Nat.sub_le _ _) levelL1, room, closed, slots⟩
  have still := inv.attached_setTls (t := t) (i := i) (fun k owned =>
    ⟨(inv.attached t i k (kept.pBucket.symm.trans owned)).1, bound, kept.pBucketData.trans data,
      kept.pStorageL1 ▸ attached.pStorageL1⟩)
  have after := bucket.flush bound owner data bucketData le
  rw [Machine.flush_eq] at after ⊢
  refine ⟨?_, ⟨?_, ?_, ?_⟩, ?_, rfl⟩
  · apply inv.replace i
    · exact Pool.Represents.setBucket (m := { m with mem := _ }) inv.represents rfl rfl
    · intro j other
      exact congrArg PoolBucket.head
        (Machine.setBucket_bucket_of_ne { m with mem := _ } a i _ (fun same => other same.2))
    · intro x different
      rcases changed x different with ⟨o, member, low, high⟩
      have fits := (bucket.isBlock_cached (inCache o member)).end_le bound
      omega
    · intro u j other
      exact Machine.setTls_of_ne _ i t _ (fun same => other same.2)
    · exact fun u => still u i
    · rfl
    · intro j _; rfl
    · exact ⟨_, after⟩
  · intro b other
    exact Machine.setBucket_allocs_of_ne { m with mem := _ } a i _ other
  · intro u other
    exact Machine.setTls_threads _ other
  · intro x different
    rcases changed x different with ⟨o, member, low, high⟩
    exact ⟨i, o, bound, bucket.isBlock_cached (inCache o member),
      bucket.cached_client (inCache o member), low, by omega⟩
  · exact kept.setTls

theorem Machine.flush_slot (m : Machine) (a i t count : Nat) :
    (m.flush a i t count).tls t i = { m.tls t i with
      numElementsL1 := (m.tls t i).numElementsL1 - (count + 1) } :=
  Machine.setTls_same _ i t _

/-- `ReturnL1CacheToMaster` of a cache bucket in use either has nothing to do
or is a flush. -/
theorem returnL1_cases (count : Nat)
    (owner : (w.tls t i).pBucket = some (a, i)) :
    (TlsPoolBucket.returnL1CacheToMaster w t i count = w ∧
        min count (w.tls t i).numElementsL1 = 0) ∨
      ∃ n, n + 1 = min count (w.tls t i).numElementsL1 ∧
        TlsPoolBucket.returnL1CacheToMaster w t i count =
          { w with toMachine := w.toMachine.flush a i t n } := by
  have someBucket : (w.tls t i).pBucket.isSome = true := by rw [owner]; rfl
  by_cases nothing : count = 0
  · left
    exact ⟨by simp only [TlsPoolBucket.returnL1CacheToMaster, if_pos nothing], by omega⟩
  by_cases empty : (w.tls t i).numElementsL1 = 0
  · left
    refine ⟨?_, by omega⟩
    simp only [TlsPoolBucket.returnL1CacheToMaster, if_neg nothing, if_pos empty,
      World.check_true w someBucket]
  · right
    refine ⟨min count (w.tls t i).numElementsL1 - 1, by omega, ?_⟩
    have split : min count (w.tls t i).numElementsL1 - 1 + 1 =
        min count (w.tls t i).numElementsL1 := by omega
    simp only [TlsPoolBucket.returnL1CacheToMaster, if_neg nothing, if_neg empty,
      World.check_true w someBucket, Machine.flush, split]
    simp only [owner]

/-- `ReturnL1CacheToMaster` -/
theorem PoolInv.returnL1CacheToMaster (inv : PoolInv pool a w.toMachine out) (count : Nat)
    (owner : (w.tls t i).pBucket = some (a, i)) :
    let w' := TlsPoolBucket.returnL1CacheToMaster w t i count
    Released pool a t out w.toMachine w'.toMachine ∧ w'.failed = w.failed ∧
      w'.tls t i = { w.tls t i with
        numElementsL1 := (w.tls t i).numElementsL1 - min count (w.tls t i).numElementsL1 } := by
  rcases returnL1_cases count owner with ⟨same, nothing⟩ | ⟨n, amount, result⟩
  · rw [same, nothing]
    exact ⟨⟨inv, Confined.refl pool a t out _, fun j => TlsPoolBucket.Kept.refl _, rfl⟩, rfl, rfl⟩
  · rw [result, ← amount]
    exact ⟨inv.flush owner (by omega), rfl, w.toMachine.flush_slot a i t n⟩

/-! ## Releasing a block to the cache -/

theorem Confined.of_cons {m' : Machine} {p : Nat} (confined : Confined pool a t (p :: out) m m') :
    Confined pool a t out m m' := by
  apply confined.mono
  intro j o member
  rcases Pool.mem_offsets.mp member with ⟨q, inOut, found, named⟩
  exact Pool.mem_offsets.mpr ⟨q, List.mem_cons_of_mem p inOut, found, named⟩

theorem Released.refl (inv : PoolInv pool a m out) (t : Nat) : Released pool a t out m m :=
  ⟨inv, Confined.refl pool a t out m, fun _ => TlsPoolBucket.Kept.refl _, rfl⟩

/-- A push onto level 1, as long as there is room. -/
theorem Released.pushL1 (before : Released pool a t ((pool.pData i + o) :: out) m w.toMachine)
    (block : pool.IsBlock i o) (owner : (w.tls t i).pBucket = some (a, i))
    (backed : (w.tls t i).Backed w.heap) {offset : UInt32} (named : offset.toNat = o)
    (room : (w.tls t i).numElementsL1 < (w.tls t i).maxElementsCount) :
    Released pool a t out m (w.pushL1 t i offset).toMachine := by
  rw [World.pushL1_eq backed (by omega), World.setTls_toMachine]
  have pushed := TlsPoolBucket.offsets_pushL1 (w.tls t i) offset
  rw [named] at pushed
  have config := before.slots i
  have kept : (m.tls t i).Kept { w.tls t i with
      storageL1 := Function.update (w.tls t i).storageL1 (w.tls t i).numElementsL1 offset
      numElementsL1 := (w.tls t i).numElementsL1 + 1 } := by
    refine ⟨config.pBucket, config.pBucketData, config.pStorageL1, config.maxElementsCount, ?_,
      config.beyond⟩
    intro bounded
    have old := config.bounded bounded
    exact ⟨old.levelL0, room, old.room, old.closed, old.slots⟩
  refine ⟨before.inv.pushCache block owner rfl rfl rfl pushed, ?_, ?_, before.heap⟩
  · apply before.confined.of_cons.trans
    exact Confined.of_mem_eq (fun _ _ => rfl) (fun u other => Machine.setTls_threads _ other) rfl
  · intro j
    by_cases same : j = i
    · subst same
      rw [Machine.setTls_same]
      exact kept
    · rw [Machine.setTls_of_ne _ _ _ _ (fun equal => same equal.2)]
      exact before.slots j

/-- The cache bucket has its bucket, and a stack for what it may hold. -/
structure Machine.Caching (m : Machine) (a i t : Nat) : Prop where
  pBucket : (m.tls t i).pBucket = some (a, i)
  bounded : (m.tls t i).Bounded
  backed : (m.tls t i).Backed m.heap

theorem Machine.Caching.inside {m : Machine} (caching : m.Caching a i t) :
    (m.tls t i).numElementsL1 < (m.tls t i).maxElementsCount + maxCacheItemsCount := by
  have levelL1 := caching.bounded.levelL1
  unfold maxCacheItemsCount
  omega

theorem Machine.Caching.flush {m : Machine} (caching : m.Caching a i t) (n : Nat) :
    (m.flush a i t n).Caching a i t := by
  have bounded := caching.bounded
  have levelL1 := bounded.levelL1
  have slot := m.flush_slot a i t n
  refine ⟨?_, ?_, ?_⟩
  · rw [slot]
    exact caching.pBucket
  · rw [slot]
    exact ⟨bounded.levelL0, by simp only; omega, bounded.room, bounded.closed, bounded.slots⟩
  · rw [slot]
    exact ⟨caching.backed.stored, caching.backed.room⟩

/-- The cache bucket of thread `t` may take a block of bucket `i` of allocator
`a`: it belongs to that bucket, or it takes nothing. -/
def Machine.Accepting (m : Machine) (a i t : Nat) : Prop :=
  m.Caching a i t ∨ (m.tls t i).maxElementsCount = 0

/-- `ReleaseToCache` into a cache bucket in use: none of its assertions fails. -/
theorem PoolInv.releaseToCache_eq (inv : PoolInv pool a w.toMachine ((pool.pData i + o) :: out))
    (block : pool.IsBlock i o) (owner : (w.tls t i).pBucket = some (a, i))
    (opened : (w.tls t i).maxElementsCount ≠ 0) (useCacheL0 : Bool) :
    Allocator.releaseToCache useCacheL0 w t i (pool.pData i + o) = (true,
      if useCacheL0 ∧ (w.tls t i).numElementsL0 < maxCacheItemsCount then
        w.setTls t i { w.tls t i with
          storageL0 := Function.update (w.tls t i).storageL0 (w.tls t i).numElementsL0
            (UInt32.ofNat o)
          numElementsL0 := (w.tls t i).numElementsL0 + 1 }
      else if (w.tls t i).numElementsL1 < (w.tls t i).maxElementsCount then
        w.pushL1 t i (UInt32.ofNat o)
      else (TlsPoolBucket.returnL1CacheToMaster w t i ((w.tls t i).numElementsL1 >>> 1)).pushL1 t i
        (UInt32.ofNat o)) := by
  have attached := (inv.attached t i i owner).2
  have bound := attached.bound
  have data : (w.tls t i).pBucketData = pool.pData i := attached.pBucketData
  have fits := block.end_le bound
  have positive := Pool.element_pos bound
  have someBucket : (w.tls t i).pBucket.isSome = true := by rw [owner]; rfl
  have someData : decide ((w.tls t i).pBucketData ≠ 0) = true :=
    decide_eq_true (inv.data_ne_zero owner)
  have inRange : (decide ((w.tls t i).pBucketData ≤ pool.pData i + o) &&
      decide (pool.pData i + o < Allocator.cachedBufferEnd w (w.tls t i))) = true := by
    have bufferEnd : Allocator.cachedBufferEnd w (w.tls t i) =
        pool.pData i + pool.bucketSizeInBytes := by
      rw [Allocator.cachedBufferEnd, owner]
      exact inv.represents.bufferEnd i bound
    rw [bufferEnd, data, Bool.and_eq_true, decide_eq_true_iff, decide_eq_true_iff]
    omega
  have offset : UInt32.ofNat (sizeSub (pool.pData i + o) (w.tls t i).pBucketData) =
      UInt32.ofNat o := by
    rw [data, Pool.sizeSub_pData bound (by omega)]
  simp only [Allocator.releaseToCache, if_neg opened, World.check_true w someBucket,
    World.check_true w someData, World.check_true w inRange, offset]
  split
  · rfl
  · split <;> rfl

/-- `ReleaseToCache` -/
theorem PoolInv.releaseToCache (inv : PoolInv pool a w.toMachine ((pool.pData i + o) :: out))
    (block : pool.IsBlock i o) (accepting : w.Accepting a i t) (useCacheL0 : Bool) :
    let released := Allocator.releaseToCache useCacheL0 w t i (pool.pData i + o)
    (released = (false, w) ∧ (w.tls t i).maxElementsCount = 0) ∨
      (released.1 = true ∧ Released pool a t out w.toMachine released.2.toMachine ∧
        released.2.failed = w.failed) := by
  intro released
  by_cases closed : (w.tls t i).maxElementsCount = 0
  · left
    exact ⟨if_pos closed, closed⟩
  right
  have caching : w.Caching a i t := accepting.resolve_right closed
  have owner := caching.pBucket
  have bound := (inv.attached t i i owner).2.bound
  have named : (UInt32.ofNat o).toNat = o := block.toNat_ofNat bound
  have result : released = _ := inv.releaseToCache_eq block owner closed useCacheL0
  rw [result]
  refine ⟨rfl, ?_⟩
  by_cases level0 : useCacheL0 = true ∧ (w.tls t i).numElementsL0 < maxCacheItemsCount
  · simp only [if_pos level0]
    refine ⟨?_, rfl⟩
    have kept : (w.tls t i).Kept { w.tls t i with
        storageL0 := Function.update (w.tls t i).storageL0 (w.tls t i).numElementsL0
          (UInt32.ofNat o)
        numElementsL0 := (w.tls t i).numElementsL0 + 1 } := by
      refine ⟨rfl, rfl, rfl, rfl, ?_, fun k past => Function.update_of_ne (by omega) _ _⟩
      intro bounded
      exact ⟨level0.2, bounded.levelL1, bounded.room, fun zero => absurd zero closed,
        bounded.slots⟩
    apply Released.of_setTls _ kept
    apply inv.pushCache block owner kept.pBucket kept.pBucketData kept.pStorageL1
    have pushed := TlsPoolBucket.offsets_pushL0 (w.tls t i) (UInt32.ofNat o)
    rw [named] at pushed
    exact pushed
  simp only [if_neg level0]
  by_cases level1 : (w.tls t i).numElementsL1 < (w.tls t i).maxElementsCount
  · simp only [if_pos level1]
    refine ⟨?_, World.pushL1_failed _ _ _ _⟩
    exact (Released.refl inv t).pushL1 block owner caching.backed named level1
  · simp only [if_neg level1]
    rcases inv.returnL1CacheToMaster ((w.tls t i).numElementsL1 >>> 1) owner with
      ⟨flushed, failed, slot⟩
    have owner' := (flushed.slots i).pBucket.trans owner
    have backed := caching.backed.kept (flushed.slots i) (Nat.le_refl _)
    rw [← flushed.heap] at backed
    refine ⟨flushed.pushL1 block owner' backed named ?_,
      (World.pushL1_failed _ _ _ _).trans failed⟩
    -- a full level 1 with room for two blocks or more gives up at least one
    have levelL1 := caching.bounded.levelL1
    have room := caching.bounded.room
    rw [slot]
    change (w.tls t i).numElementsL1 - min ((w.tls t i).numElementsL1 >>> 1)
      (w.tls t i).numElementsL1 < (w.tls t i).maxElementsCount
    have half : (w.tls t i).numElementsL1 >>> 1 = (w.tls t i).numElementsL1 / 2 :=
      Nat.shiftRight_eq_div_pow _ _
    omega

/-! ## Stores into the stack -/

theorem World.pushL1_faults (backed : (w.tls t i).Backed w.heap)
    (inside : (w.tls t i).numElementsL1 < (w.tls t i).maxElementsCount + maxCacheItemsCount)
    (offset : UInt32) : (w.pushL1 t i offset).faults = w.faults := by
  rw [World.pushL1_eq backed inside]
  rfl

/-- `ReleaseToCache` stores within the stack. -/
theorem releaseToCache_faults (inv : PoolInv pool a w.toMachine ((pool.pData i + o) :: out))
    (block : pool.IsBlock i o) (caching : w.Caching a i t) (useCacheL0 : Bool) :
    (Allocator.releaseToCache useCacheL0 w t i (pool.pData i + o)).2.faults = w.faults := by
  by_cases closed : (w.tls t i).maxElementsCount = 0
  · exact congrArg (fun released : Bool × World => released.2.faults) (if_pos closed)
  rw [inv.releaseToCache_eq block caching.pBucket closed]
  simp only
  split
  · rfl
  split
  · exact World.pushL1_faults caching.backed caching.inside _
  · rcases returnL1_cases ((w.tls t i).numElementsL1 >>> 1) caching.pBucket with
      ⟨same, -⟩ | ⟨n, -, flushed⟩
    · rw [same]
      exact World.pushL1_faults caching.backed caching.inside _
    · rw [flushed]
      exact World.pushL1_faults (caching.flush n).backed (caching.flush n).inside _

end SmMalloc
