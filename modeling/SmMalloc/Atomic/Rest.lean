import SmMalloc.Atomic.Client

namespace SmMalloc

open Foundation

/-!
# Nothing is lost on the way

At every moment each block of a bucket is on its list, in the hands of a call
of `Free` that has not come to its end, or with a client.  When all calls have
returned, the machine is one of those that whole calls know how to deal with:
threads may go on with sessions, and create caches.
-/

variable {scheme : Partitioning} {pool : Pool scheme} {s : AtomicPool} {move : PoolMove}
variable {a i t : Nat} {m : Machine} {rest central : List Nat}
variable {_bucketsCount _bucketSizeInBytes : Nat}
variable {inner : Fin pool.bucketsCount -> CountedBucket}

/-- The thread whose step it is. -/
def PoolMove.thread : PoolMove -> Option Nat
  | .alloc t _ _ => some t
  | .free t _ => some t
  | .proceed t => some t
  | .write _ _ _ => none

namespace AtomicPool

/-! ## What a step leaves alone -/

theorem popped_errand_of_ne (request : Request) (other : t ≠ i) {j : Nat} (onward : Onward) :
    (s.popped scheme i request j onward).errand t = s.errand t := by
  cases onward with
  | stays point => exact Function.update_of_ne other _ _
  | returns p =>
      simp only [popped]
      split <;> exact Function.update_of_ne other _ _

theorem pushed_errand_of_ne (other : t ≠ i) {j : Nat} (onward : Onward) :
    (s.pushed i j onward).errand t = s.errand t := by
  cases onward <;> exact Function.update_of_ne other _ _

theorem popped_world (s : AtomicPool) (request : Request) (j : Nat) (onward : Onward) :
    (s.popped scheme t request j onward).world = s.world := by
  cases onward with
  | stays point => rfl
  | returns p =>
      simp only [popped]
      split <;> rfl

theorem pushed_world (s : AtomicPool) (j : Nat) (onward : Onward) :
    (s.pushed t j onward).world = s.world := by
  cases onward <;> rfl

/-- A thread moves only by its own steps. -/
theorem step_errand_of_ne (others : move.thread ≠ some t) :
    (s.step scheme a move).errand t = s.errand t := by
  have other : forall u, move.thread = some u -> t ≠ u := by
    rintro u isThread rfl
    exact others isThread
  cases move with
  | alloc u bytesCount alignment =>
      simp only [step, beginAlloc]
      split
      · rfl
      · exact Function.update_of_ne (other u rfl) _ _
  | free u p =>
      simp only [step, beginFree]
      split
      · rfl
      · split
        · exact Function.update_of_ne (other u rfl) _ _
        · rfl
  | write p k v => rfl
  | proceed u =>
      simp only [step, proceed]
      cases s.errand u with
      | idle => rfl
      | round request j =>
          simp only
          split <;> exact Function.update_of_ne (other u rfl) _ _
      | popping request j point =>
          exact (popped_errand_of_ne request (other u rfl) _).trans rfl
      | generic request => exact Function.update_of_ne (other u rfl) _ _
      | pushing j point => exact (pushed_errand_of_ne (other u rfl) _).trans rfl

theorem run_errand_of_ne {moves : List PoolMove}
    (others : forall move, move ∈ moves -> move.thread ≠ some t) : forall {s : AtomicPool},
    ((system scheme a _bucketsCount _bucketSizeInBytes).run s moves).errand t = s.errand t := by
  induction moves with
  | nil => exact rfl
  | cons move moves ih =>
      intro s
      have later := ih (fun other member => others other (List.mem_cons_of_mem _ member))
        (s := s.step scheme a move)
      exact later.trans (step_errand_of_ne (others move List.mem_cons_self))

theorem allocStep_tls (m : Machine) (a i : Nat) (point : Point) :
    (PoolBucket.allocStep m a i point).2.tls = m.tls := by
  cases point <;> simp only [PoolBucket.allocStep]
  · split <;> rfl
  · split <;> rfl

theorem freeIntervalStep_tls (m : Machine) (a i : Nat) (point : Point) :
    (PoolBucket.freeIntervalStep m a i point).2.tls = m.tls := by
  cases point <;> simp only [PoolBucket.freeIntervalStep, Machine.setBucket_tls]
  split <;> rfl

/-- No step touches the thread-local data. -/
theorem step_tls (s : AtomicPool) (move : PoolMove) :
    (s.step scheme a move).world.tls = s.world.tls := by
  cases move with
  | alloc t bytesCount alignment =>
      simp only [step, beginAlloc]
      split <;> rfl
  | free t p =>
      simp only [step, beginFree]
      split
      · rfl
      · split <;> rfl
  | write p k v => rfl
  | proceed t =>
      cases here : s.errand t with
      | idle => simp only [step, proceed, here]
      | round request j =>
          simp only [step, proceed, here]
          split <;> rfl
      | popping request j point =>
          simp only [step, proceed, here, popped_world]
          exact allocStep_tls s.world.toMachine a j point
      | generic request => simp only [step, proceed, here]; rfl
      | pushing j point =>
          simp only [step, proceed, here, pushed_world]
          exact freeIntervalStep_tls s.world.toMachine a j point

/-- No thread has a cache. -/
theorem uncached (arguments : InitArguments _bucketsCount _bucketSizeInBytes)
    (reachable : (system scheme a _bucketsCount _bucketSizeInBytes).Reachable s) :
    forall t i, (s.world.tls t i).Idle := by
  apply reachable.invariant
  · rintro first ⟨w, fresh, -, rfl⟩
    have empty : (w.allocs a).bucketsCount = 0 := by
      rw [fresh.constructed]
      rfl
    rw [(init_spec scheme arguments empty).tls]
    exact fresh.tls
  · intro before move _ idle _
    change forall t i, ((before.step scheme a move).world.tls t i).Idle
    rw [step_tls]
    exact idle

/-! ## Who keeps the blocks -/

/-- What each of them keeps of bucket `i`, when the list is `central`. -/
def keeps (s : AtomicPool) (pool : Pool scheme) (i : Nat) (central : List Nat) :
    Keeper -> List Nat
  | .central => central
  | .stack _ => []
  | .thread t => ((s.errand t).pointIn i).blocks
  | .client => pool.offsets s.held i

/-- The blocks of bucket `i` are divided exactly, and the list is what its links say. -/
structure Conserved (pool : Pool scheme) (a : Nat) (s : AtomicPool) (i : Nat)
    (central : List Nat) : Prop where
  linked : TaggedIndex.kind.Linked (linksAt s.world.mem (pool.pData i))
    (s.world.bucket a i).head central
  custody : Custody (s.keeps pool i central) (pool.IsBlock i)

theorem Known.conserved (known : Known pool a rest s inner) (i : Fin pool.bucketsCount) :
    ∃ central, Conserved pool a s i central := by
  rcases known.sound i with ⟨central, sound⟩
  have reflects := known.fits.parts i
  refine ⟨central, ?_, ?_⟩
  · have linked := sound.owned.linked
    rw [reflects.shows.head] at linked
    apply linked.congr
    intro o listed
    have block : pool.IsBlock i o := sound.owned.custody.supplied .central listed
    have link := reflects.shows.link o block
    rw [known.data i.isLt] at link
    exact link.symm
  · apply sound.owned.custody.reorder Keeper.client reflects.held
    intro keeper notClient
    cases keeper with
    | central => rfl
    | stack t => exact (known.stackless i t).symm
    | thread t =>
        change ((s.errand t).pointIn i).blocks = ((inner i).bucket.point t).blocks
        rw [reflects.point t]
    | client => exact absurd rfl notClient

/-- In every interleaving and at every step, each block of each bucket is on
the list, in one call of `Free`, or with one client. -/
theorem conserves (integral : scheme ≠ .float)
    (wellFormed : WellFormed scheme _bucketsCount _bucketSizeInBytes)
    (twoBlocks : TwoBlocks scheme _bucketsCount _bucketSizeInBytes)
    (reachable : (system scheme a _bucketsCount _bucketSizeInBytes).Reachable s) :
    ∃ pool : Pool scheme, pool.LaidOut _bucketsCount _bucketSizeInBytes (s.world.allocs a).pBuffer ∧
      forall i, i < pool.bucketsCount -> ∃ central, Conserved pool a s i central := by
  rcases reachable_fits wellFormed (Partitioning.sized integral) twoBlocks reachable with
    ⟨pool, rest, inner, roomy, layout, reached, fits⟩
  refine ⟨pool, ?_, fun i bound => (roomy.known fits reached).conserved ⟨i, bound⟩⟩
  exact ⟨layout.bucketsCount, layout.bucketSizeInBytes, fits.standing.represents.pBuffer.symm⟩

/-- Between the pop of thread 0 and the failure of thread 1. -/
theorem onePage_reaches (count : Nat) :
    (system .piecewise 0 1 4096).Reachable
      ((system .piecewise 0 1 4096).run onePage (contendedRun.take count)) := by
  apply Transition.Reachable.after (Transition.Reachable.start onePage_start)
  have split := (Transition.permitted_append (system .piecewise 0 1 4096)
    (contendedRun.take count) (contendedRun.drop count) onePage).mp
  rw [List.take_append_drop] at split
  exact (split contendedRun_permitted).1

theorem conserves_onePage :
    ∃ pool : Pool .piecewise, pool.LaidOut 1 4096
        (((system .piecewise 0 1 4096).run onePage (contendedRun.take 13)).world.allocs 0).pBuffer ∧
      forall i, i < pool.bucketsCount -> ∃ central, Conserved pool 0
        ((system .piecewise 0 1 4096).run onePage (contendedRun.take 13)) i central :=
  conserves (by decide) (onePage_wellFormed (by decide)) onePage_twoBlocks (onePage_reaches 13)

/-! ## When all calls have returned -/

/-- Who has a block between two calls, as one who may have it during them. -/
def keeper : Holder -> Keeper
  | .central => .central
  | .cache t => .stack t
  | .client => .client

/-- With no call in progress, the list and the clients have everything. -/
theorem Conserved.bucketInv (conserved : Conserved pool a s i central)
    (idle : forall t, s.errand t = .idle) (uncached : forall t i, (s.world.tls t i).Idle) :
    BucketInv pool s.world.toMachine a i central (pool.offsets s.held i) where
  linked := conserved.linked
  custody := by
    have injective : Function.Injective keeper := by
      intro first second same
      cases first <;> cases second <;> cases same <;> rfl
    apply conserved.custody.relabel injective
    · intro holder
      cases holder with
      | central => rfl
      | cache t => exact cached_of_idle (uncached t i)
      | client => rfl
    · intro keeper unnamed
      cases keeper with
      | central => exact absurd rfl (unnamed .central)
      | stack t => rfl
      | thread t =>
          change ((s.errand t).pointIn i).blocks = []
          rw [idle t]
          rfl
      | client => exact absurd rfl (unnamed .client)

/-- When all calls have returned, the machine is sound. -/
theorem Known.sound_of_idle (known : Known pool a rest s inner)
    (idle : forall t, s.errand t = .idle) (uncached : forall t i, (s.world.tls t i).Idle) :
    Session.Sound pool a rest ⟨s.world, s.held⟩ where
  inv := by
    refine ⟨known.fits.standing.represents, fun i bound => ?_, ?_, known.fits.standing.buffer⟩
    · rcases known.conserved ⟨i, bound⟩ with ⟨central, conserved⟩
      exact ⟨central, conserved.bucketInv idle uncached⟩
    · intro t i j attached
      rw [(uncached t i).pBucket] at attached
      cases attached
  slots := fun t i => Or.inl (uncached t i)
  ledger := known.fits.standing.ledger
  addresses := known.fits.standing.addresses

/-- However the calls have interleaved, once all of them have returned the
threads may go on with whole calls, and with caches, on a sound machine. -/
theorem at_rest (integral : scheme ≠ .float)
    (wellFormed : WellFormed scheme _bucketsCount _bucketSizeInBytes)
    (twoBlocks : TwoBlocks scheme _bucketsCount _bucketSizeInBytes)
    (reachable : (system scheme a _bucketsCount _bucketSizeInBytes).Reachable s)
    (idle : forall t, s.errand t = .idle) :
    ∃ (pool : Pool scheme) (rest : List Nat),
      pool.LaidOut _bucketsCount _bucketSizeInBytes (s.world.allocs a).pBuffer ∧
      forall ops, (Session.system scheme a _bucketsCount _bucketSizeInBytes).Permitted
          ⟨s.world, s.held⟩ ops ->
        ((Session.system scheme a _bucketsCount _bucketSizeInBytes).run
          ⟨s.world, s.held⟩ ops).Sound pool a rest := by
  rcases reachable_fits wellFormed (Partitioning.sized integral) twoBlocks reachable with
    ⟨pool, rest, inner, roomy, layout, reached, fits⟩
  have sound := (roomy.known fits reached).sound_of_idle idle
    (uncached wellFormed.arguments reachable)
  refine ⟨pool, rest, ?_, fun ops permitted => sound.run permitted⟩
  exact ⟨layout.bucketsCount, layout.bucketSizeInBytes, fits.standing.represents.pBuffer.symm⟩

theorem contendedRun_idle (t : Nat) :
    ((system .piecewise 0 1 4096).run onePage contendedRun).errand t = .idle := by
  by_cases zero : t = 0
  · subst zero
    decide +kernel
  by_cases one : t = 1
  · subst one
    decide +kernel
  apply (run_errand_of_ne _).trans rfl
  intro move member own
  have threads : contendedRun.map PoolMove.thread = [some 0, some 1, some 0, some 1, some 0, some 1,
    some 0, some 1, none, some 1, some 1, some 0, some 0, some 0, some 0, some 0] := rfl
  have listed : some t ∈ contendedRun.map PoolMove.thread := List.mem_map.mpr ⟨move, member, own⟩
  rw [threads] at listed
  simp [zero, one] at listed

theorem at_rest_onePage :
    ∃ (pool : Pool .piecewise) (rest : List Nat),
      pool.LaidOut 1 4096
        (((system .piecewise 0 1 4096).run onePage contendedRun).world.allocs 0).pBuffer ∧
      forall ops, (Session.system .piecewise 0 1 4096).Permitted
          ⟨((system .piecewise 0 1 4096).run onePage contendedRun).world,
            ((system .piecewise 0 1 4096).run onePage contendedRun).held⟩ ops ->
        ((Session.system .piecewise 0 1 4096).run
          ⟨((system .piecewise 0 1 4096).run onePage contendedRun).world,
            ((system .piecewise 0 1 4096).run onePage contendedRun).held⟩ ops).Sound pool 0 rest := by
  have reachable : (system .piecewise 0 1 4096).Reachable
      ((system .piecewise 0 1 4096).run onePage contendedRun) :=
    Transition.Reachable.after (Transition.Reachable.start onePage_start) contendedRun_permitted
  exact at_rest (by decide) (onePage_wellFormed (by decide)) onePage_twoBlocks reachable
    contendedRun_idle

end AtomicPool

end SmMalloc
