import SmMalloc.Pool.Beside
import SmMalloc.Session.Share

namespace SmMalloc

open Foundation

/-!
# Two allocators of one program

`GetTlsBucket` finds the cache of a thread by the number of the bucket alone,
so `Alloc` and `Free` of one allocator use whatever cache the thread has, also
one that was created through another allocator.  Then they hand out blocks of
the other, and give their own blocks to it.  As long as an allocator finds no
block in a cache that is not its own, and no room for one, the two do not know
of each other.
-/

variable {scheme : Partitioning} {own other : Pool scheme} {a b t i p : Nat}
variable {_bucketsCount _bucketSizeInBytes _bucketsCount' _bucketSizeInBytes' : Nat}

/-- The first allocator is the one through which threads create their caches. -/
inductive Instance
  | first
  | second
  deriving DecidableEq

/-- The calls that a program with two allocators makes. -/
inductive Pair.Call
  | alloc (x : Instance) (t bytesCount alignment : Nat)
  | free (x : Instance) (t p : Nat)
  | createThreadCache (t : Nat) (warmupOptions : CacheWarmupOptions) (options : List Nat)
  | destroyThreadCache (t : Nat)

namespace Pair.Call

/-- The allocator that is called. -/
def callee : Pair.Call -> Instance
  | .alloc x _ _ _ => x
  | .free x _ _ => x
  | .createThreadCache _ _ _ => .first
  | .destroyThreadCache _ => .first

def op : Pair.Call -> Op
  | .alloc _ t bytesCount alignment => .alloc t bytesCount alignment
  | .free _ t p => .free t p
  | .createThreadCache t warmupOptions options => .createThreadCache t warmupOptions options
  | .destroyThreadCache t => .destroyThreadCache t

end Pair.Call

/-- A world with two allocators, and what the clients have from each of them. -/
structure Pair where
  world : World
  held : Instance -> List Nat

namespace Pair

section

variable (scheme : Partitioning) (a b : Nat)

/-- The two allocator objects. -/
def object : Instance -> Nat
  | .first => a
  | .second => b

/-- The program as the clients of one allocator see it. -/
def view (s : Pair) (x : Instance) : Session := ⟨s.world, s.held x⟩

def step (s : Pair) (call : Call) : Pair :=
  let after := Session.step scheme (object a b call.callee) (s.view call.callee) call.op
  ⟨after.world, Function.update s.held call.callee after.held⟩

def Allowed (s : Pair) (call : Call) : Prop :=
  Session.Allowed scheme (object a b call.callee) (s.view call.callee) call.op

/-- Either allocator may have been created first, and used before the other was. -/
inductive Start (_bucketsCount _bucketSizeInBytes _bucketsCount' _bucketSizeInBytes' : Nat) :
    Pair -> Prop
  | firstThenSecond {s : Session}
      (reachable : (Session.system scheme a _bucketsCount _bucketSizeInBytes).Reachable s)
      (constructed : s.world.allocs b = Allocator.constructed)
      (served : s.world.heap.answer (bufferBytes _bucketsCount' _bucketSizeInBytes')
        kMaxValidAlignment ≠ 0) :
      Start _bucketsCount _bucketSizeInBytes _bucketsCount' _bucketSizeInBytes'
        ⟨Allocator.init scheme s.world b _bucketsCount' _bucketSizeInBytes',
          fun | .first => s.held | .second => []⟩
  | secondThenFirst {s : Session}
      (reachable : (Session.system scheme b _bucketsCount' _bucketSizeInBytes').Reachable s)
      (cacheless : forall t, s.Cacheless t)
      (constructed : s.world.allocs a = Allocator.constructed)
      (served : s.world.heap.answer (bufferBytes _bucketsCount _bucketSizeInBytes)
        kMaxValidAlignment ≠ 0) :
      Start _bucketsCount _bucketSizeInBytes _bucketsCount' _bucketSizeInBytes'
        ⟨Allocator.init scheme s.world a _bucketsCount _bucketSizeInBytes,
          fun | .first => [] | .second => s.held⟩

def system (_bucketsCount _bucketSizeInBytes _bucketsCount' _bucketSizeInBytes' : Nat) :
    Transition Pair Call where
  start := Start scheme a b _bucketsCount _bucketSizeInBytes _bucketsCount' _bucketSizeInBytes'
  allowed := Allowed scheme a b
  next := step scheme a b

/-- The second allocator finds no block in the cache bucket that its request
looks at, and no room in the one that its release looks at. -/
def Separate (s : Pair) : Call -> Prop
  | .alloc .second t bytesCount alignment =>
      bytesCount = 0 ∨ ¬ CacheServes scheme s.world.toMachine b t bytesCount alignment
  | .free .second t p => kMaxValidAlignment < p ->
      (s.world.allocs b).findBucket p < (s.world.allocs b).bucketsCount ->
      (s.world.tls t ((s.world.allocs b).findBucket p)).maxElementsCount = 0
  | _ => True

/-! ## What isolation means -/

/-- The address lies in the buffer of allocator `c`. -/
def InBuffer (s : Pair) (c p : Nat) : Prop :=
  (s.world.allocs c).pBuffer ≤ p ∧ p < (s.world.allocs c).pBuffer +
    (s.world.allocs c).bucketsCount * (s.world.allocs c).bucketSizeInBytes

instance (s : Pair) (c p : Nat) : Decidable (s.InBuffer c p) :=
  inferInstanceAs (Decidable (_ ∧ _))

/-- A block at the address is live on the fallback heap, and it is in no buffer. -/
def OnHeap (s : Pair) (p : Nat) : Prop :=
  ∃ size, ⟨p, size⟩ ∈ s.world.heap.live ∧ forall x, Region.Apart ⟨p, size⟩
    ⟨(s.world.allocs (object a b x)).pBuffer, (s.world.allocs (object a b x)).bucketsCount *
      (s.world.allocs (object a b x)).bucketSizeInBytes⟩

/-- The offset is that of a block of bucket `i` of allocator `x`, and no client holds it. -/
def FreeBlock (s : Pair) (x : Instance) (i o : Nat) : Prop :=
  ∃ k, k < Allocator.getBucketElementsCount scheme (s.world.allocs (object a b x)) i ∧
    o = k * scheme.getBucketSizeInBytesByIndex i ∧
    (s.world.bucket (object a b x) i).pData + o ∉ s.held x

/-- Clients have blocks of the allocator that they asked, or of the fallback
heap; central lists and caches keep free blocks of their own allocator; and
the second allocator has every free block on its central lists. -/
structure Isolated (s : Pair) : Prop where
  buffers : forall p, ¬ (s.InBuffer a p ∧ s.InBuffer b p)
  clients : forall x p, p ∈ s.held x -> s.InBuffer (object a b x) p ∨ s.OnHeap a b p
  lists : forall x i, i < (s.world.allocs (object a b x)).bucketsCount ->
    ∃ central, (s.view x).CentralList (object a b x) i central ∧ central.Nodup ∧
      (forall o, o ∈ central -> s.FreeBlock scheme a b x i o) ∧
      (x = .second -> forall o, s.FreeBlock scheme a b x i o -> o ∈ central)
  caches : forall t i o, o ∈ (s.world.tls t i).offsets -> i < (s.world.allocs a).bucketsCount ∧
    (s.world.tls t i).pBucketData = (s.world.bucket a i).pData ∧
    s.FreeBlock scheme a b .first i o

end

/-! ## Separate steps keep the two apart -/

/-- The two allocators are side by side, with what the clients hold outside. -/
def Sound (s : Pair) (own other : Pool scheme) (a b : Nat) (rest : List Nat) : Prop :=
  Beside own other a b rest s.world.toMachine (s.held .first) (s.held .second)

namespace Sound

variable {s : Pair} {rest out : List Nat} {bytesCount alignment : Nat}

/-- A step of the first allocator, seen as a step of its session. -/
theorem first {call : Call} {s' : Session} (sound : s.Sound own other a b rest)
    (callee : call.callee = .first)
    (opened : Session.step scheme a (s.view .first) call.op = s')
    (after : s'.Sound own a (other.shareOf (s.held .second) rest))
    (confined : Confined own a t out s.world.toMachine s'.world.toMachine)
    (buffer : other.buffer ∈ s'.world.heap.live) :
    (s.step scheme a b call).Sound own other a b rest := by
  have same : s.step scheme a b call = ⟨s'.world, Function.update s.held .first s'.held⟩ := by
    rw [step, callee, ← opened]
    rfl
  rw [same]
  exact Beside.own_step sound after confined buffer

/-- `Alloc` of the first allocator. -/
theorem first_alloc (sound : s.Sound own other a b rest) (valid : ValidAlignment alignment)
    (nonempty : bytesCount ≠ 0) :
    (s.step scheme a b (.alloc .first t bytesCount alignment)).Sound own other a b rest := by
  have view : (s.view .first).Sound own a (other.shareOf (s.held .second) rest) :=
    Beside.sound sound
  have callee : (Call.alloc .first t bytesCount alignment).callee = .first := rfl
  have allocated := (Beside.sound sound).request t valid nonempty
  exact sound.first callee rfl (view.alloc valid) allocated.confined.1
    (allocated.live (Beside.inv sound).buffer)

/-- `Free` through the first allocator. -/
theorem first_free (sound : s.Sound own other a b rest) (member : p ∈ s.held .first) :
    (s.step scheme a b (.free .first t p)).Sound own other a b rest := by
  have view : (s.view .first).Sound own a (other.shareOf (s.held .second) rest) :=
    Beside.sound sound
  have callee : (Call.free .first t p).callee = .first := rfl
  have freed := (view.returned member).free t
  exact sound.first callee rfl freed.1 freed.2.1
    (Beside.buffer_of_shrunk sound freed.1 (fun _ => (view.returned member).free_live t))

theorem first_createThreadCache {warmupOptions : CacheWarmupOptions} {options : List Nat}
    (sound : s.Sound own other a b rest)
    (allowed : s.Allowed scheme a b (.createThreadCache t warmupOptions options)) :
    (s.step scheme a b (.createThreadCache t warmupOptions options)).Sound own other a b rest := by
  have view : (s.view .first).Sound own a (other.shareOf (s.held .second) rest) :=
    Beside.sound sound
  have callee : (Call.createThreadCache t warmupOptions options).callee = .first := rfl
  have created := view.created allowed
  have opened : Session.step scheme a (s.view .first)
      (Call.createThreadCache t warmupOptions options).op =
    ⟨Allocator.createThreadCache scheme s.world a t warmupOptions options, s.held .first⟩ := rfl
  refine sound.first callee opened created.sound created.confined ?_
  change other.buffer ∈
    (Allocator.createThreadCache scheme s.world a t warmupOptions options).heap.live
  have live : (Allocator.createThreadCache scheme s.world a t warmupOptions options).heap.live = _ :=
    created.live
  rw [live]
  exact List.mem_append_right _ (Beside.inv sound).buffer

theorem first_destroyThreadCache (sound : s.Sound own other a b rest) :
    (s.step scheme a b (.destroyThreadCache t)).Sound own other a b rest := by
  have callee : (Call.destroyThreadCache t).callee = .first := rfl
  have destroyed := SmMalloc.Sound.destroyThreadCache (Beside.sound sound) t
  have buffer := Beside.buffer_of_shrunk sound destroyed.sound destroyed.live
  have opened : Session.step scheme a (s.view .first) (Call.destroyThreadCache t).op =
    ⟨Allocator.destroyThreadCache s.world t, s.held .first⟩ := rfl
  exact sound.first callee opened destroyed.sound destroyed.confined buffer

/-- A step of the second allocator, seen as a step of its session. -/
theorem second {call : Call} {s' : Session} (callee : call.callee = .second)
    (opened : Session.step scheme b (s.view .second) call.op = s')
    (after : Beside own other a b rest s'.world.toMachine (s.held .first) s'.held) :
    (s.step scheme a b call).Sound own other a b rest := by
  have same : s.step scheme a b call = ⟨s'.world, Function.update s.held .second s'.held⟩ := by
    rw [step, callee, ← opened]
    rfl
  rw [same]
  exact after

/-- `Alloc` of the second allocator. -/
theorem second_alloc (sound : s.Sound own other a b rest) (integral : scheme ≠ .float)
    (valid : ValidAlignment alignment) (bytesBound : bytesCount < 2 ^ 64)
    (positive : 0 < bytesCount)
    (misses : ¬ CacheServes scheme s.world.toMachine b t bytesCount alignment) :
    (s.step scheme a b (.alloc .second t bytesCount alignment)).Sound own other a b rest := by
  have limit := Partitioning.le_requestLimit integral bytesBound
  have callee : (Call.alloc .second t bytesCount alignment).callee = .second := rfl
  refine second callee rfl ?_
  have after := Beside.other_alloc sound positive limit valid misses rfl
  have granted : Session.grant (s.held .second) bytesCount
      (Allocator.alloc scheme s.world b t bytesCount alignment).1 =
      if (Allocator.alloc scheme s.world b t bytesCount alignment).1 = 0 then s.held .second
      else (Allocator.alloc scheme s.world b t bytesCount alignment).1 :: s.held .second := by
    have nonempty : bytesCount ≠ 0 := by omega
    simp only [Session.grant, nonempty, false_or]
  rw [← granted] at after
  exact after

/-- `Free` through the second allocator. -/
theorem second_free (sound : s.Sound own other a b rest) (member : p ∈ s.held .second)
    (closed : other.findBucket p < other.bucketsCount ->
      (s.world.tls t (other.findBucket p)).maxElementsCount = 0) :
    (s.step scheme a b (.free .second t p)).Sound own other a b rest := by
  have callee : (Call.free .second t p).callee = .second := rfl
  have perm : (p :: (s.held .second).erase p).Perm (s.held .second) :=
    (List.perm_cons_erase member).symm
  have listed : Beside own other a b rest s.world.toMachine (s.held .first)
      (p :: (s.held .second).erase p) := Beside.perm sound perm
  exact second callee rfl (listed.other_free closed)

/-- A call for no bytes, or with a pointer that stands for no bytes, changes nothing. -/
theorem nothing {call : Call} (sound : s.Sound own other a b rest)
    (same : Session.step scheme (object a b call.callee) (s.view call.callee) call.op =
      s.view call.callee) : (s.step scheme a b call).Sound own other a b rest := by
  have unchanged : s.step scheme a b call = s := by
    rw [step, same]
    exact congrArg (Pair.mk s.world) (Function.update_eq_self _ _)
  rw [unchanged]
  exact sound

theorem alloc_nothing {c : Nat} (valid : ValidAlignment alignment) (view : Session) :
    Session.step scheme c view (.alloc t 0 alignment) = view := by
  simp only [Session.step, Session.Sound.alloc_empty valid, Session.grant, true_or, if_true]

theorem free_nothing {c : Nat} {view : Session} (small : p ≤ kMaxValidAlignment)
    (absent : p ∉ view.held) : Session.step scheme c view (.free t p) = view := by
  simp only [Session.step, free_empty small, List.erase_of_not_mem absent]

theorem addresses (sound : s.Sound own other a b rest) (x : Instance) (p : Nat)
    (member : p ∈ s.held x) : kMaxValidAlignment < p ∧ p < 2 ^ 64 := by
  cases x with
  | first => exact (Beside.sound sound).addresses p member
  | second => exact Beside.addresses sound p member

/-- Every permitted separate call keeps the two side by side. -/
theorem separate {call : Call} (sound : s.Sound own other a b rest) (integral : scheme ≠ .float)
    (allowed : s.Allowed scheme a b call) (separate : s.Separate scheme b call) :
    (s.step scheme a b call).Sound own other a b rest := by
  have count := (Beside.inv sound).represents.bucketsCount
  have find := (Beside.inv sound).represents.findBucket
  cases call with
  | alloc x t bytesCount alignment =>
      have valid : ValidAlignment alignment := allowed.2
      by_cases empty : bytesCount = 0
      · subst empty
        exact sound.nothing (alloc_nothing valid _)
      cases x with
      | first => exact sound.first_alloc valid empty
      | second =>
          exact sound.second_alloc integral valid allowed.1 (by omega)
            (separate.resolve_left empty)
  | free x t p =>
      have returnable : (s.view x).Returnable p := allowed
      rcases returnable with small | member
      · exact sound.nothing (free_nothing small (fun member => by
          have address := (sound.addresses x p member).1
          omega))
      cases x with
      | first => exact sound.first_free member
      | second =>
          have above := (Beside.addresses sound p member).1
          rw [Separate, find, count] at separate
          exact sound.second_free member (separate above)
  | createThreadCache t warmupOptions options => exact sound.first_createThreadCache allowed
  | destroyThreadCache t => exact sound.first_destroyThreadCache

/-! ## Side by side is isolated -/

/-- The pool that an allocator has, and the addresses that are outside of it. -/
theorem inBuffer_iff {pool : Pool scheme} {c : Nat} (represents : pool.Represents (s.world.allocs c))
    (p : Nat) : s.InBuffer c p <->
      pool.base ≤ p ∧ p < pool.base + pool.bucketsCount * pool.bucketSizeInBytes := by
  rw [InBuffer, represents.pBuffer, represents.bucketsCount, represents.bucketSizeInBytes]

theorem onHeap (sound : s.Sound own other a b rest) {size : Nat}
    (live : ⟨p, size⟩ ∈ s.world.heap.live) (notOwn : p ≠ own.base) (notOther : p ≠ other.base) :
    s.OnHeap a b p := by
  refine ⟨size, live, fun x => ?_⟩
  cases x with
  | first =>
      have represents := (Beside.sound sound).inv.represents
      change Region.Apart _ ⟨(s.world.allocs a).pBuffer, _⟩
      rw [object, represents.pBuffer, represents.bucketsCount, represents.bucketSizeInBytes]
      exact Beside.apart sound live (Beside.sound sound).inv.buffer notOwn
  | second =>
      have represents := (Beside.inv sound).represents
      change Region.Apart _ ⟨(s.world.allocs b).pBuffer, _⟩
      rw [object, represents.pBuffer, represents.bucketsCount, represents.bucketSizeInBytes]
      exact Beside.apart sound live (Beside.inv sound).buffer notOther

/-- A block of the pool lies in its buffer. -/
theorem block_inBuffer {pool : Pool scheme} {c o : Nat}
    (represents : pool.Represents (s.world.allocs c)) (bound : i < pool.bucketsCount)
    (block : pool.IsBlock i o) : s.InBuffer c (pool.pData i + o) := by
  have fits := block.end_le bound
  have positive := Pool.element_pos bound
  have low := pool.base_le_pData i
  have high := Pool.bucket_end_le bound
  exact (inBuffer_iff represents _).mpr ⟨by omega, by omega⟩

theorem clients_first (sound : s.Sound own other a b rest) (member : p ∈ s.held .first) :
    s.InBuffer a p ∨ s.OnHeap a b p := by
  have view : (s.view .first).Sound own a (other.shareOf (s.held .second) rest) :=
    Beside.sound sound
  have first := view.returned member
  rcases first.inv.outside_cases (view.readable member).2 with elsewhere | ⟨i, o, bound, block, rfl⟩
  · rcases first.region elsewhere with ⟨size, -, live, apart⟩
    have listed : p ∈ own.elsewhere (s.held .first) :=
      List.mem_filter.mpr ⟨member, decide_eq_true elsewhere⟩
    have notOwn : p ≠ own.base := by
      unfold Region.Apart at apart
      simp only at apart
      omega
    have notOther : p ≠ other.base := by
      rintro rfl
      have mine : other.base ∈ s.world.heapShares own (other.shareOf (s.held .second) rest)
        (s.held .first) HeapHolder.client := listed
      have theirs : other.base ∈ s.world.heapShares own (other.shareOf (s.held .second) rest)
        (s.held .first) HeapHolder.rest := List.mem_cons_self
      cases (Beside.sound sound).ledger.custody.holder_unique mine theirs
    exact Or.inr (sound.onHeap live notOwn notOther)
  · exact Or.inl (block_inBuffer (Beside.sound sound).inv.represents bound block)

theorem clients_second (sound : s.Sound own other a b rest) (member : p ∈ s.held .second) :
    s.InBuffer b p ∨ s.OnHeap a b p := by
  have custody := (Beside.sound sound).ledger.custody
  have perm : (p :: (s.held .second).erase p).Perm (s.held .second) :=
    (List.perm_cons_erase member).symm
  have address := Beside.addresses sound p member
  rcases ((Beside.inv sound).perm perm).outside_cases address.2 with
    elsewhere | ⟨i, o, bound, block, rfl⟩
  · have listed : p ∈ other.elsewhere (s.held .second) :=
      List.mem_filter.mpr ⟨member, decide_eq_true elsewhere⟩
    have share : p ∈ other.shareOf (s.held .second) rest :=
      List.mem_cons_of_mem _ (List.mem_append_left _ listed)
    have notOther : p ≠ other.base := by
      rintro rfl
      have nodup : (other.shareOf (s.held .second) rest).Nodup := custody.nodup HeapHolder.rest
      exact (List.nodup_cons.mp nodup).1 (List.mem_append_left _ listed)
    have alive : s.world.heap.Live p := custody.supplied HeapHolder.rest share
    rcases List.mem_map.mp alive with ⟨⟨base, size⟩, live, rfl⟩
    exact Or.inr (sound.onHeap live (Beside.base_ne sound share) notOther)
  · exact Or.inl (block_inBuffer (Beside.inv sound).represents bound block)

theorem clients (sound : s.Sound own other a b rest) (x : Instance) (p : Nat)
    (member : p ∈ s.held x) : s.InBuffer (object a b x) p ∨ s.OnHeap a b p := by
  cases x with
  | first => exact sound.clients_first member
  | second => exact sound.clients_second member

theorem freeBlock_iff {pool : Pool scheme} {x : Instance} {o : Nat}
    (represents : pool.Represents (s.world.allocs (object a b x))) (bound : i < pool.bucketsCount) :
    s.FreeBlock scheme a b x i o <-> pool.IsBlock i o ∧ pool.pData i + o ∉ s.held x := by
  have pData : (s.world.bucket (object a b x) i).pData = pool.pData i := represents.pData i bound
  rw [FreeBlock, pData, represents.getBucketElementsCount bound]
  constructor
  · rintro ⟨k, inside, rfl, unheld⟩
    exact ⟨⟨k, inside, rfl⟩, unheld⟩
  · rintro ⟨⟨k, inside, rfl⟩, unheld⟩
    exact ⟨k, inside, rfl, unheld⟩

/-- What the central lists of an allocator keep are free blocks of its own. -/
theorem lists {pool : Pool scheme} {x : Instance}
    (inv : PoolInv pool (object a b x) s.world.toMachine (s.held x))
    (addresses : forall p, p ∈ s.held x -> kMaxValidAlignment < p ∧ p < 2 ^ 64)
    (bound : i < pool.bucketsCount) :
    ∃ central, (s.view x).CentralList (object a b x) i central ∧ central.Nodup ∧
      (forall o, o ∈ central -> s.FreeBlock scheme a b x i o) ∧
      ((forall t, s.world.cached (object a b x) i t = []) ->
        forall o, s.FreeBlock scheme a b x i o -> o ∈ central) := by
  have free := fun o => freeBlock_iff (o := o) inv.represents bound
  have pData : (s.world.bucket (object a b x) i).pData = pool.pData i :=
    inv.represents.pData i bound
  rcases inv.buckets i bound with ⟨central, bucket⟩
  refine ⟨central, ?_, bucket.custody.nodup Holder.central, ?_, ?_⟩
  · rw [Session.CentralList, view, pData]
    exact bucket.linked
  · intro o member
    have block := bucket.isBlock_central member
    refine (free o).mpr ⟨block, fun inHeld => ?_⟩
    exact bucket.central_client member ((inv.listed_iff addresses bound block).mpr inHeld)
  · intro uncached o freed
    rcases (free o).mp freed with ⟨block, unheld⟩
    rcases (bucket.custody.covers o).mp block with ⟨holder, kept⟩
    cases holder with
    | central => exact kept
    | cache t =>
        change o ∈ s.world.cached (object a b x) i t at kept
        rw [uncached t] at kept
        cases kept
    | client => exact absurd ((inv.listed_iff addresses bound block).mp kept) unheld

/-- What the caches keep are free blocks of the first allocator. -/
theorem caches (sound : s.Sound own other a b rest) (t : Nat) {o : Nat}
    (member : o ∈ (s.world.tls t i).offsets) : i < (s.world.allocs a).bucketsCount ∧
      (s.world.tls t i).pBucketData = (s.world.bucket a i).pData ∧
      s.FreeBlock scheme a b .first i o := by
  have inv := (Beside.sound sound).inv
  rcases (Beside.sound sound).slots t i with idle | serving
  · rw [offsets_of_empty idle.numElementsL0 idle.numElementsL1] at member
    cases member
  · have attached := (inv.attached t i i serving.pBucket).2
    have pData : (s.world.bucket a i).pData = own.pData i := inv.represents.pData i attached.bound
    have cached : o ∈ s.world.cached a i t := by
      rw [Machine.cached, if_pos serving.pBucket]
      exact member
    rcases inv.buckets i attached.bound with ⟨central, bucket⟩
    have block := bucket.isBlock_cached cached
    refine ⟨inv.represents.bucketsCount ▸ attached.bound,
      attached.pBucketData.trans pData.symm, ?_⟩
    refine (freeBlock_iff (x := .first) inv.represents attached.bound).mpr ⟨block, fun inHeld => ?_⟩
    exact bucket.cached_client cached
      (((Beside.sound sound).listed_iff attached.bound block).mpr inHeld)

theorem isolated (sound : s.Sound own other a b rest) : s.Isolated scheme a b where
  buffers := by
    rintro p ⟨inOwn, inOther⟩
    have apart := Beside.buffers sound
    have first := (inBuffer_iff (Beside.sound sound).inv.represents p).mp inOwn
    have second := (inBuffer_iff (Beside.inv sound).represents p).mp inOther
    omega
  clients := sound.clients
  lists := by
    intro x i bound
    cases x with
    | first =>
        have inv := (Beside.sound sound).inv
        rcases lists (x := .first) inv (Beside.sound sound).addresses
          (inv.represents.bucketsCount ▸ bound) with ⟨central, list, nodup, free, -⟩
        exact ⟨central, list, nodup, free, fun same => by cases same⟩
    | second =>
        have inv := Beside.inv sound
        rcases lists (x := .second) inv (Beside.addresses sound)
          (inv.represents.bucketsCount ▸ bound) with ⟨central, list, nodup, free, all⟩
        exact ⟨central, list, nodup, free,
          fun _ => all (fun t => if_neg (Beside.uncached sound t i i))⟩
  caches := fun t i o member => sound.caches t member

end Sound

/-- Two allocators are isolated in every run of separate calls. -/
theorem isolation (integral : scheme ≠ .float) (different : b ≠ a)
    (wellFormed : WellFormed scheme _bucketsCount _bucketSizeInBytes)
    (wellFormed' : WellFormed scheme _bucketsCount' _bucketSizeInBytes') {s : Pair}
    (reachable : ((system scheme a b _bucketsCount _bucketSizeInBytes _bucketsCount'
      _bucketSizeInBytes').restrict (Separate scheme b)).Reachable s) :
    s.Isolated scheme a b := by
  have sized := Partitioning.sized integral
  have invariant : ∃ own other : Pool scheme, ∃ rest, s.Sound own other a b rest := by
    apply reachable.invariant
    · intro first start
      cases start with
      | firstThenSecond earlier constructed served =>
          rcases Session.reachable_sound wellFormed sized earlier with ⟨own, rest, -, sound⟩
          rcases Beside.create_other sized different sound constructed wellFormed' served with
            ⟨other, beside⟩
          exact ⟨own, other, rest, beside⟩
      | secondThenFirst earlier cacheless constructed served =>
          rcases Session.reachable_sound wellFormed' sized earlier with ⟨other, rest, -, sound⟩
          rcases Beside.create_own sized different sound
            (fun t => sound.idle (cacheless t)) constructed wellFormed served with ⟨own, beside⟩
          exact ⟨own, other, rest, beside⟩
    · rintro before call - ⟨own, other, rest, sound⟩ ⟨allowed, separate⟩
      exact ⟨own, other, rest, sound.separate integral allowed separate⟩
  rcases invariant with ⟨own, other, rest, sound⟩
  exact sound.isolated

/-! ## Two allocators of one page each -/

/-- Two allocators with one bucket of one page. -/
def onePageEach : Pair :=
  ⟨Allocator.init .piecewise Session.onePage.world 1 1 4096,
    fun | .first => Session.onePage.held | .second => []⟩

theorem onePageEach_start : (system .piecewise 0 1 1 4096 1 4096).start onePageEach :=
  Start.firstThenSecond Session.onePage_reachable rfl (by decide)

/-- Thread 0 has a cache.  Its requests find the cache empty, and it releases
only what it has from the first allocator. -/
def separateRun : List Call :=
  [.createThreadCache 0 .cold [3], .alloc .second 0 16 4, .alloc .first 0 16 4,
    .free .first 0 8192]

theorem isolation_onePageEach :
    ((system .piecewise 0 1 1 4096 1 4096).run onePageEach separateRun).Isolated .piecewise 0 1 := by
  have permitted : ((system .piecewise 0 1 1 4096 1 4096).restrict
      (Separate .piecewise 1)).Permitted onePageEach separateRun := by
    refine ⟨⟨⟨fun _ => rfl, by decide, by decide, by decide⟩, trivial⟩,
      ⟨⟨by decide, valid_four⟩, Or.inr (fun serves => absurd serves.2 (by decide))⟩,
      ⟨⟨by decide, valid_four⟩, trivial⟩, ⟨Or.inr (by decide), trivial⟩, trivial⟩
  have start : ((system .piecewise 0 1 1 4096 1 4096).restrict
      (Separate .piecewise 1)).Reachable onePageEach := Transition.Reachable.start onePageEach_start
  have used := start.after permitted
  rw [Transition.run_restrict] at used
  exact isolation (by decide) (by decide) (onePage_wellFormed (by decide))
    (onePage_wellFormed (by decide)) used

/-- Thread 0 caches a block of the first allocator, and then asks the second. -/
def mixedRun : List Call :=
  [.createThreadCache 0 .cold [3], .alloc .first 0 16 4, .free .first 0 8192,
    .alloc .second 0 16 4]

/-- The second allocator hands out the block of the first. -/
theorem not_isolated_onePageEach :
    ∃ s, (system .piecewise 0 1 1 4096 1 4096).Reachable s ∧
      8192 ∈ s.held .second ∧ ¬ s.InBuffer 1 8192 ∧ s.InBuffer 0 8192 := by
  have permitted : (system .piecewise 0 1 1 4096 1 4096).Permitted onePageEach mixedRun := by
    refine ⟨⟨fun _ => rfl, by decide, by decide, by decide⟩, ⟨by decide, valid_four⟩,
      Or.inr (by decide), ⟨by decide, valid_four⟩, trivial⟩
  refine ⟨_, (Transition.Reachable.start onePageEach_start).after permitted, ?_⟩
  decide +kernel

end Pair

end SmMalloc
