import SmMalloc.Atomic.Start

namespace SmMalloc

open Foundation

/-!
# A tagged value that comes back

The tag of a pushed node comes from the counter of the bucket, and no two
pushes share one.  The links inside a returned chain are tagged differently:
`ReturnL1CacheToMaster` counts from `0xFFFFFF` in every call.  So the same block
at the same position of two chains gets the same tagged value twice, and a call
of `Alloc` that read the link of its first occurrence succeeds on the second.

This is the only way in which it happens.  As long as no push puts back a
tagged value that a call of `Alloc` remembers with another link, every
successful compare-exchange of `Alloc` installs the link that is in the block,
and the block belongs to the caller alone.
-/

variable {elementSize size t : Nat} {s : AtomicBucket}

namespace AtomicBucket

/-- What a successful compare-exchange of `Alloc` relies on. -/
structure Pops (elementSize size : Nat) (s : AtomicBucket) (headValue nextValue : TaggedIndex) :
    Prop where
  next : nextValue = s.link headValue.offset.toNat
  block : IsBlock elementSize size headValue.offset.toNat
  notHeld : headValue.offset.toNat ∉ s.held
  notCached : forall u, headValue.offset.toNat ∉ s.pStorageL1 u
  notReturned : forall u, headValue.offset.toNat ∉ (s.point u).blocks

/-- In every run whose pushes are not remembered, a compare-exchange of `Alloc`
that is about to succeed installs the current link of a block nobody owns. -/
theorem pops_current (cut : Cut elementSize size)
    (reachable : ((system elementSize size).restrict Unremembered).Reachable s)
    {headValue nextValue : TaggedIndex} (here : s.point t = .allocRead headValue nextValue)
    (same : s.head = headValue) : Pops elementSize size s headValue nextValue := by
  rcases owned_of_reachable cut.fits reachable with ⟨central, owned⟩
  rcases owned.pop here same with ⟨list, next, -⟩
  have listed : headValue.offset.toNat ∈ s.keeps central .central := by
    change headValue.offset.toNat ∈ central
    rw [list]
    exact List.mem_cons_self
  refine ⟨next, owned.custody.supplied _ listed, ?_, ?_, ?_⟩
  · intro member
    have inClient : headValue.offset.toNat ∈ s.keeps central .client := member
    cases owned.owner_unique listed inClient
  · intro u member
    have inStack : headValue.offset.toNat ∈ s.keeps central (.stack u) := member
    cases owned.owner_unique listed inStack
  · intro u member
    have inThread : headValue.offset.toNat ∈ s.keeps central (.thread u) := member
    cases owned.owner_unique listed inThread

/-! ## Three blocks -/

/-- Allocator 0 has one bucket of three blocks of 16 bytes, not yet cut. -/
def threeBlocksMachine : Machine where
  mem := fun _ => 0
  allocs := fun _ => { Allocator.constructed with
    buckets := fun _ => ⟨⟨0, 0⟩, 8192, 8240, 0⟩ }
  tls := fun _ _ => TlsPoolBucket.zero
  heap := ⟨[], fun _ => 0, 0, []⟩

def threeBlocks : AtomicBucket := ofBucket (PoolBucket.create threeBlocksMachine 0 0 16) 0 0

theorem threeBlocks_start : (system 16 48).start threeBlocks :=
  ⟨threeBlocksMachine, 0, 0, rfl, rfl⟩

/-- Thread 1 stops before its compare-exchange.  Thread 0 takes the block and
gives it back with another tag, and is about to take it again. -/
def taggedRun : List Move :=
  [.alloc 1, .proceed 1, .alloc 0, .proceed 0, .proceed 0, .write 0 ⟨7, 7⟩, .free 0 0,
    .proceed 0, .proceed 0, .proceed 0, .proceed 0, .alloc 0, .proceed 0]

theorem unremembered_of_call {move : Move} (noStep : forall t, move ≠ .proceed t) :
    s.Unremembered move := fun t _ _ _ isMove => absurd isMove (noStep t)

/-- A step of a thread that is not about to push. -/
theorem unremembered_of_not_linked (notLinked : (s.point t).isLinked = false) :
    s.Unremembered (.proceed t) := by
  intro u chain nodeValue headValue isMove here
  injection isMove with same
  subst same
  rw [here] at notLinked
  cases notLinked

/-- A thread stays where it is while the others run. -/
theorem run_point_of_ne {u : Nat} {moves : List Move} :
    forall {s : AtomicBucket}, (forall move, move ∈ moves -> move.thread ≠ some u) ->
    ((system elementSize size).run s moves).point u = s.point u := by
  induction moves with
  | nil => exact fun _ => rfl
  | cons move rest ih =>
      intro s others
      have later := ih (s := s.step move)
        (fun other member => others other (List.mem_cons_of_mem _ member))
      exact later.trans (step_point_of_ne (others move List.mem_cons_self))

/-- Where thread 0 is about to give block 0 back. -/
def beforePush : AtomicBucket := (system 16 48).run threeBlocks (taggedRun.take 10)

/-- Thread 1 remembers block 0 with another tag. -/
theorem beforePush_unremembered : beforePush.Unremembered (.proceed 0) := by
  intro t chain nodeValue headValue isMove here same u value nextValue reading member
  injection isMove with isThread
  subst isThread
  have linked : beforePush.point 0 = .freeLinked ⟨0, []⟩ ⟨2, 0⟩ ⟨0, 16⟩ := by decide +kernel
  have stopped : beforePush.point 1 = .allocRead ⟨0, 0⟩ ⟨0, 16⟩ := by decide +kernel
  rw [linked] at here
  cases here
  have isNode : value = ⟨2, 0⟩ := List.mem_singleton.mp member
  subst isNode
  cases u with
  | zero =>
      rw [linked] at reading
      cases reading
  | succ u =>
      cases u with
      | zero =>
          rw [stopped] at reading
          cases reading
      | succ u =>
          have idle : beforePush.point (u + 2) = threeBlocks.point (u + 2) := by
            apply run_point_of_ne
            simp [taggedRun, Move.thread]
          rw [idle] at reading
          cases reading

theorem taggedRun_permitted :
    ((system 16 48).restrict Unremembered).Permitted threeBlocks taggedRun := by
  have call : forall {s : AtomicBucket} {move : Move}, (forall t, move ≠ .proceed t) ->
      s.Unremembered move := unremembered_of_call
  have quiet : forall {s : AtomicBucket} {t : Nat}, (s.point t).isLinked = false ->
      s.Unremembered (.proceed t) := unremembered_of_not_linked
  refine ⟨⟨by decide +kernel, call (fun _ equal => by cases equal)⟩,
    ⟨trivial, quiet (by decide +kernel)⟩,
    ⟨by decide +kernel, call (fun _ equal => by cases equal)⟩,
    ⟨trivial, quiet (by decide +kernel)⟩, ⟨trivial, quiet (by decide +kernel)⟩,
    ⟨by decide +kernel, call (fun _ equal => by cases equal)⟩,
    ⟨by decide +kernel, call (fun _ equal => by cases equal)⟩,
    ⟨trivial, quiet (by decide +kernel)⟩, ⟨trivial, quiet (by decide +kernel)⟩,
    ⟨trivial, quiet (by decide +kernel)⟩, ⟨trivial, beforePush_unremembered⟩,
    ⟨by decide +kernel, call (fun _ equal => by cases equal)⟩,
    ⟨trivial, quiet (by decide +kernel)⟩, trivial⟩

theorem pops_current_threeBlocks :
    Pops 16 48 ((system 16 48).run threeBlocks taggedRun) ⟨2, 0⟩ ⟨0, 16⟩ := by
  have cut : Cut 16 48 := ⟨by decide, by decide, by decide⟩
  have start : ((system 16 48).restrict Unremembered).Reachable threeBlocks :=
    Transition.Reachable.start threeBlocks_start
  have reachable := start.after taggedRun_permitted
  rw [Transition.run_restrict] at reachable
  have here : ((system 16 48).run threeBlocks taggedRun).point 0 = .allocRead ⟨2, 0⟩ ⟨0, 16⟩ := by
    decide +kernel
  exact pops_current cut reachable here (by decide +kernel)

/-- Thread 0 takes all three blocks. -/
def takeAll : List Move :=
  [.alloc 0, .proceed 0, .proceed 0, .alloc 0, .proceed 0, .proceed 0,
    .alloc 0, .proceed 0, .proceed 0]

/-- Thread 0 returns blocks 1 and 2 as a chain, and takes block 1 again. -/
def returnBoth : List Move :=
  [.releaseToCache 0 16, .releaseToCache 0 32, .returnL1CacheToMaster 0 2,
    .proceed 0, .proceed 0, .proceed 0, .proceed 0, .proceed 0, .proceed 0,
    .alloc 0, .proceed 0, .proceed 0]

/-- Block 0 is on the list, and blocks 1 and 2 are put in front of it.  Thread 1
reads the link of block 2, to block 0, and stops.  Thread 0 takes blocks 2 and 0
and returns blocks 1 and 2 as before. -/
def staleRun : List Move :=
  takeAll ++ [.free 0 0, .proceed 0, .proceed 0, .proceed 0, .proceed 0] ++ returnBoth ++
    [.alloc 1, .proceed 1] ++
    [.alloc 0, .proceed 0, .proceed 0, .alloc 0, .proceed 0, .proceed 0] ++ returnBoth

/-- Where thread 1 is about to take block 2. -/
def beforeStale : AtomicBucket := (system 16 48).run threeBlocks staleRun

/-- Thread 1 takes block 2, and thread 0 takes a block again. -/
def takeTwice : List Move := [.proceed 1, .alloc 0, .proceed 0, .proceed 0]

/-- What thread 1 installs as the head is not the link in block 2 but block 0,
which thread 0 holds and is then given a second time. -/
theorem stale_link_installed :
    (system 16 48).start threeBlocks ∧
      (system 16 48).Permitted threeBlocks (staleRun ++ takeTwice) ∧
      (staleRun ++ takeTwice).length < 2 ^ 24 ∧
      beforeStale.point 1 = .allocRead beforeStale.head ⟨2, 0⟩ ∧
      beforeStale.link beforeStale.head.offset.toNat ≠ ⟨2, 0⟩ ∧
      (beforeStale.step (.proceed 1)).head = ⟨2, 0⟩ ∧
      ((system 16 48).run beforeStale takeTwice).held.count 0 = 2 := by
  refine ⟨threeBlocks_start, ?_⟩
  decide +kernel

end AtomicBucket

end SmMalloc
