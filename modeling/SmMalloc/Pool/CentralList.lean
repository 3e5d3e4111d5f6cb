import SmMalloc.Pool.Invariant

namespace SmMalloc

open Foundation

/-!
# The central list keeps the invariant

Popping a block moves it from the central list to the outside.  Attaching a
chain moves its blocks the other way; for that the chain must be threaded
through the blocks' own link words, which is what the loop of
`ReturnL1CacheToMaster` does.
-/

variable {scheme : Partitioning} {pool : Pool scheme} {m m' : Machine} {a i : Nat}
variable {central client out out' : List Nat}

/-- Bytes of the blocks that are not outside, and so may hold links. -/
def Pool.FreeByte (pool : Pool scheme) (out : List Nat) (x : Nat) : Prop :=
  ∃ i o, i < pool.bucketsCount ∧ pool.IsBlock i o ∧ o ∉ pool.offsets out i ∧
    pool.pData i + o ≤ x ∧ x < pool.pData i + o + pool.elementSize i

/-- What an operation of thread `t` on allocator `a` leaves alone: the other
allocators, the caches of the other threads, and every byte except those of
free blocks. -/
structure Confined (pool : Pool scheme) (a t : Nat) (out : List Nat) (m m' : Machine) : Prop where
  allocs : forall b, b ≠ a -> m'.allocs b = m.allocs b
  threads : forall u, u ≠ t -> m'.tls u = m.tls u
  mem : forall x, m'.mem x ≠ m.mem x -> pool.FreeByte out x

namespace Confined

variable {t : Nat} {first second third : Machine}

theorem refl (pool : Pool scheme) (a t : Nat) (out : List Nat) (m : Machine) :
    Confined pool a t out m m :=
  ⟨fun _ _ => rfl, fun _ _ => rfl, fun _ changed => absurd rfl changed⟩

theorem trans (before : Confined pool a t out first second)
    (after : Confined pool a t out second third) : Confined pool a t out first third where
  allocs := fun b other => (after.allocs b other).trans (before.allocs b other)
  threads := fun u other => (after.threads u other).trans (before.threads u other)
  mem := by
    intro x changed
    by_cases late : third.mem x = second.mem x
    · exact before.mem x (fun same => changed (late.trans same))
    · exact after.mem x late

/-- With fewer addresses outside, more bytes are free. -/
theorem mono (confined : Confined pool a t out first second)
    (fewer : forall i o, o ∈ pool.offsets out' i -> o ∈ pool.offsets out i) :
    Confined pool a t out' first second where
  allocs := confined.allocs
  threads := confined.threads
  mem := by
    intro x changed
    rcases confined.mem x changed with ⟨i, o, bound, block, inside, low, high⟩
    exact ⟨i, o, bound, block, fun member => inside (fewer i o member), low, high⟩

theorem of_mem_eq (allocs : forall b, b ≠ a -> second.allocs b = first.allocs b)
    (threads : forall u, u ≠ t -> second.tls u = first.tls u) (mem : second.mem = first.mem) :
    Confined pool a t out first second :=
  ⟨allocs, threads, fun x changed => absurd (congrFun mem x) changed⟩

end Confined

/-! ## Popping -/

/-- What the outcome of an attempt to take a block from bucket `i` can be. -/
structure Taken (pool : Pool scheme) (a t i o : Nat) (out : List Nat) (m m' : Machine) : Prop where
  block : pool.IsBlock i o
  fresh : o ∉ pool.offsets out i
  inv : PoolInv pool a m' ((pool.pData i + o) :: out)
  allocs : forall b, b ≠ a -> m'.allocs b = m.allocs b
  threads : forall u, u ≠ t -> m'.tls u = m.tls u
  slots : forall j, (m.tls t j).Kept (m'.tls t j)
  others : forall j, j ≠ i -> m'.tls t j = m.tls t j
  mem : m'.mem = m.mem
  heap : m'.heap = m.heap

theorem Taken.confined {t o : Nat} (taken : Taken pool a t i o out m m') :
    Confined pool a t out m m' :=
  Confined.of_mem_eq taken.allocs taken.threads taken.mem

theorem BucketInv.pop {o : Nat} (inv : BucketInv pool m a i (o :: central) client) :
    BucketInv pool (m.setBucket a i { m.bucket a i with
      head := linksAt m.mem (pool.pData i) o }) a i central (o :: client) where
  linked := by
    rw [Machine.setBucket_bucket_same]
    exact inv.linked.2.2
  custody := by
    apply inv.custody.transfer Holder.central Holder.client (by intro h; cases h)
    · change (central ++ o :: client).Perm (o :: central ++ client)
      exact List.perm_middle
    · intro other notCentral notClient
      cases other with
      | central => exact absurd rfl notCentral
      | cache t => rfl
      | client => exact absurd rfl notClient

theorem elsewhere_cons {o j : Nat} (bound : i < pool.bucketsCount) (block : pool.IsBlock i o)
    (other : j ≠ i) (out : List Nat) :
    pool.offsets ((pool.pData i + o) :: out) j = pool.offsets out j := by
  apply Pool.offsets_cons_of_ne
  rw [Pool.findBucket_block bound block]
  exact fun same => other same.symm

/-- `PoolBucket::Alloc` on a list that is not empty. -/
theorem PoolInv.alloc_cons (inv : PoolInv pool a m out) (bound : i < pool.bucketsCount) (t : Nat)
    {o : Nat} (bucket : BucketInv pool m a i (o :: central) (pool.offsets out i)) :
    (PoolBucket.alloc m a i).1 = pool.pData i + o ∧
      Taken pool a t i o out m (PoolBucket.alloc m a i).2 ∧
      BucketInv pool (PoolBucket.alloc m a i).2 a i central
        (pool.offsets ((pool.pData i + o) :: out) i) := by
  have block := bucket.isBlock_central List.mem_cons_self
  have data : (m.bucket a i).pData = pool.pData i := inv.represents.pData i bound
  have running : (m.bucket a i).head ≠ TaggedIndex.invalid := bucket.linked.1
  have named : (m.bucket a i).head.offset.toNat = o := bucket.linked.2.1
  have result : PoolBucket.alloc m a i = (pool.pData i + o, m.setBucket a i
      { m.bucket a i with head := linksAt m.mem (pool.pData i) o }) := by
    simp only [PoolBucket.alloc, if_neg running, data, named, linksAt]
  have popped : BucketInv pool (m.setBucket a i
      { m.bucket a i with head := linksAt m.mem (pool.pData i) o }) a i central
      (pool.offsets ((pool.pData i + o) :: out) i) := by
    rw [Pool.offsets_cons_block bound block]
    exact bucket.pop
  rw [result]
  refine ⟨rfl, ⟨block, bucket.central_client List.mem_cons_self, ?_, ?_, fun _ _ => rfl,
    fun j => TlsPoolBucket.Kept.refl _, fun _ _ => rfl, rfl, rfl⟩, popped⟩
  · apply inv.replace i
    · exact inv.represents.setBucket rfl rfl
    · intro j other
      rw [Machine.setBucket_bucket_of_ne]
      exact fun same => other same.2
    · intro x changed
      exact absurd rfl changed
    · intro u j _; rfl
    · exact fun u j owned => inv.attached u i j owned
    · rfl
    · intro j other
      exact elsewhere_cons bound block other out
    · exact ⟨central, popped⟩
  · intro b other
    exact Machine.setBucket_allocs_of_ne m a i _ other

/-- `PoolBucket::Alloc` -/
theorem PoolInv.alloc (inv : PoolInv pool a m out) (bound : i < pool.bucketsCount) (t : Nat) :
    (PoolBucket.alloc m a i = (0, m) ∧ BucketInv pool m a i [] (pool.offsets out i)) ∨
      ∃ o, (PoolBucket.alloc m a i).1 = pool.pData i + o ∧
        Taken pool a t i o out m (PoolBucket.alloc m a i).2 := by
  rcases inv.buckets i bound with ⟨central, bucket⟩
  cases central with
  | nil =>
      have stopped : (m.bucket a i).head = TaggedIndex.invalid := bucket.linked
      left
      exact ⟨by simp only [PoolBucket.alloc, if_pos stopped], bucket⟩
  | cons o rest =>
      have result := inv.alloc_cons bound t bucket
      exact Or.inr ⟨o, result.1, result.2.1⟩

/-! ## Attaching -/

/-- The loop of `ReturnL1CacheToMaster` threads its blocks together, and the
final store of `FreeInterval` links the last of them to `final`. -/
theorem linkChain_threaded (pData : Nat) (stack : Nat -> UInt32) (final : TaggedIndex) :
    forall (remaining k : Nat) (tag : UInt32) (o : Nat) (mem : Memory),
    (o :: (List.range' k remaining).map (fun j => (stack j).toNat)).Pairwise
      (fun x y => x + 8 ≤ y ∨ y + 8 ≤ x) ->
    (forall j value, k ≤ j -> j < k + remaining -> value.offset = stack j ->
      value ≠ TaggedIndex.invalid) ->
    let built := TlsPoolBucket.linkChain pData stack remaining k tag (pData + o) mem
    let stored := TaggedIndex.store built.1 built.2 final
    TaggedIndex.kind.Threaded (linksAt stored pData)
        (o :: (List.range' k remaining).map (fun j => (stack j).toNat)) final ∧
      forall x, (forall o', o' ∈ o :: (List.range' k remaining).map (fun j => (stack j).toNat) ->
        x < pData + o' ∨ pData + o' + 8 ≤ x) -> stored x = mem x := by
  intro remaining
  induction remaining with
  | zero =>
      intro k tag o mem _ _
      refine ⟨TaggedIndex.load_store mem (pData + o) final, ?_⟩
      intro x outside
      exact TaggedIndex.store_outside (outside o List.mem_cons_self)
  | succ remaining ih =>
      intro k tag o mem apart running
      have range : List.range' k (remaining + 1) = k :: List.range' (k + 1) remaining := rfl
      rw [range, List.map_cons] at apart ⊢
      rcases List.pairwise_cons.mp apart with ⟨firstApart, restApart⟩
      have later := ih (k + 1) (tag + 1) (stack k).toNat
        (TaggedIndex.store mem (pData + o) ⟨tag, stack k⟩) restApart
        (fun j value low high named => running j value (by omega) (by omega) named)
      rcases later with ⟨threaded, frame⟩
      -- the link just stored survives the rest of the loop
      have kept : linksAt (TaggedIndex.store
          (TlsPoolBucket.linkChain pData stack (remaining + 1) k tag (pData + o) mem).1
          (TlsPoolBucket.linkChain pData stack (remaining + 1) k tag (pData + o) mem).2 final)
          pData o = ⟨tag, stack k⟩ := by
        have same : forall j, j < 8 -> (TaggedIndex.store
            (TlsPoolBucket.linkChain pData stack (remaining + 1) k tag (pData + o) mem).1
            (TlsPoolBucket.linkChain pData stack (remaining + 1) k tag (pData + o) mem).2 final)
            (pData + o + j) = TaggedIndex.store mem (pData + o) ⟨tag, stack k⟩ (pData + o + j) := by
          intro j small
          apply frame
          intro o' member
          have := firstApart o' member
          omega
        exact (TaggedIndex.load_congr same).trans (TaggedIndex.load_store _ _ _)
      refine ⟨⟨?_, ?_, threaded⟩, ?_⟩
      · rw [kept]
        exact running k _ (Nat.le_refl k) (by omega) rfl
      · rw [kept]
        rfl
      · intro x outside
        have old := frame x (fun o' member => outside o' (List.mem_cons_of_mem _ member))
        exact old.trans (TaggedIndex.store_outside (outside o List.mem_cons_self))

/-- A threaded chain of blocks in front of the central list. -/
theorem BucketInv.linked_attach (inv : BucketInv pool m a i central client) (chain : List Nat)
    (bound : i < pool.bucketsCount) {mem : Memory} {value : TaggedIndex}
    (blocks : forall o, o ∈ chain -> pool.IsBlock i o ∧ o ∉ central)
    (threaded : TaggedIndex.kind.Threaded (linksAt mem (pool.pData i)) chain (m.bucket a i).head)
    (named : chain.head? = some value.offset.toNat)
    (frame : forall x, (forall o, o ∈ chain ->
      x < pool.pData i + o ∨ pool.pData i + o + 8 ≤ x) -> mem x = m.mem x) :
    TaggedIndex.kind.Linked (linksAt mem (pool.pData i)) value (chain ++ central) := by
  have running : value ≠ TaggedIndex.invalid := by
    cases chain with
    | nil => cases named
    | cons o rest =>
        have same : o = value.offset.toNat := Option.some.inj named
        exact Pool.ne_invalid_of_block bound (blocks o List.mem_cons_self).1 same.symm
  apply LinkKind.Linked.attach _ threaded running named
  apply inv.linked.congr
  intro o member
  have block := inv.isBlock_central member
  have positive := Pool.element_pos bound
  apply TaggedIndex.load_congr
  intro k small
  apply frame
  intro o' inChain
  have block' := (blocks o' inChain).1
  have different : o ≠ o' := by
    rintro rfl
    exact (blocks o inChain).2 member
  have apart := block.apart block' different
  omega

/-- `FreeInterval(p, p)` for a block that is outside. -/
theorem PoolInv.freeInterval {o : Nat} (inv : PoolInv pool a m ((pool.pData i + o) :: out))
    (bound : i < pool.bucketsCount) (block : pool.IsBlock i o) (t : Nat) :
    PoolInv pool a (PoolBucket.freeInterval m a i (pool.pData i + o) (pool.pData i + o)) out ∧
      Confined pool a t out m
        (PoolBucket.freeInterval m a i (pool.pData i + o) (pool.pData i + o)) := by
  have data : (m.bucket a i).pData = pool.pData i := inv.represents.pData i bound
  rcases inv.buckets i bound with ⟨central, bucket⟩
  rw [Pool.offsets_cons_block bound block] at bucket
  have positive := Pool.element_pos bound
  have fits := block.end_le bound
  have notCentral : o ∉ central := fun member =>
    bucket.central_client member List.mem_cons_self
  have notClient : o ∉ pool.offsets out i :=
    (List.nodup_cons.mp (bucket.custody.nodup Holder.client)).1
  have changed : forall x,
      (TaggedIndex.store m.mem (pool.pData i + o) (m.bucket a i).head) x ≠ m.mem x ->
      pool.pData i + o ≤ x ∧ x < pool.pData i + o + 8 := by
    intro x different
    by_contra outside
    exact different (TaggedIndex.store_outside (by omega))
  constructor
  · apply inv.replace i
    · exact Pool.Represents.setBucket (m := { m with mem := _ }) inv.represents rfl rfl
    · intro j other
      unfold PoolBucket.freeInterval
      rw [Machine.setBucket_bucket_of_ne]
      · rfl
      · exact fun same => other same.2
    · intro x different
      have inside := changed x different
      omega
    · intro u j _; rfl
    · exact fun u j owned => inv.attached u i j owned
    · rfl
    · intro j other
      exact (elsewhere_cons bound block other out).symm
    · refine ⟨o :: central, ?_, ?_⟩
      · unfold PoolBucket.freeInterval
        rw [Machine.setBucket_bucket_same]
        refine bucket.linked_attach [o] bound ?_ ?_ ?_ ?_
        · intro o' member
          rw [List.mem_singleton.mp member]
          exact ⟨block, notCentral⟩
        · exact TaggedIndex.load_store _ _ _
        · rw [data, Pool.offset_of_block bound block]
          rfl
        · intro x outside
          exact TaggedIndex.store_outside (outside o List.mem_cons_self)
      · apply bucket.custody.transfer Holder.central Holder.client (by intro h; cases h)
        · change (o :: central ++ pool.offsets out i).Perm (central ++ o :: pool.offsets out i)
          exact List.perm_middle.symm
        · intro other notCentral notClient
          cases other with
          | central => exact absurd rfl notCentral
          | cache t => rfl
          | client => exact absurd rfl notClient
  · refine ⟨?_, fun _ _ => rfl, ?_⟩
    · intro b other
      exact Machine.setBucket_allocs_of_ne _ a i _ other
    · intro x different
      have inside := changed x different
      exact ⟨i, o, bound, block, notClient, inside.1, by omega⟩

end SmMalloc
