import Mathlib.Data.List.Induction
import SmMalloc.Pool.FirstFit
import SmMalloc.Atomic.Rest

namespace SmMalloc

open Foundation

/-!
# When a request leaves its size class

Other threads may fill a list again as soon as a call of `Allocate` has left
it, so at no single moment need all lists of the search be empty.  What can be
said is that each list that the call has passed was empty at a moment of its
own, a load of this very call: blocks of larger classes are handed out, and the
fallback heap is asked, only then.
-/

variable {scheme : Partitioning} {pool : Pool scheme} {s first : AtomicPool} {move : PoolMove}
variable {moves : List PoolMove} {a i j t bytesCount alignment : Nat} {m : Machine}
variable {rest : List Nat} {request : Request} {point : Point} {onward : Onward}
variable {_bucketsCount _bucketSizeInBytes : Nat}
variable {inner : Fin pool.bucketsCount -> CountedBucket}

/-- The bucket is one that the search of the request goes through. -/
def Request.Suits (scheme : Partitioning) (request : Request) (j : Nat) : Prop :=
  Suitable scheme request.alignment (request.index scheme) j

/-- The buckets that a call in progress has found empty. -/
def Errand.Passed (scheme : Partitioning) (j : Nat) : Errand -> Prop
  | .round request i => request.Suits scheme j ∧ j < i
  | .popping request i point =>
      request.Suits scheme j ∧ (j < i ∨ j = i ∧ point = .allocLoaded TaggedIndex.invalid)
  | .generic request => request.Suits scheme j ∧ j < request.maxBucketIndex
  | _ => False

namespace AtomicPool

/-- A miss passes this bucket and no other. -/
theorem passed_of_onMiss (sized : scheme.Sized) (within : request.Within pool i)
    (passed : (onMiss scheme request i).Passed scheme j) : request.Suits scheme j ∧ j ≤ i := by
  rcases sized.nextAligned (Nat.lt_of_lt_of_le within.bound pool.count_le) within.fine.valid with
    ⟨next, found⟩
  rw [onMiss, found] at passed
  rcases passed with ⟨suits, below⟩
  refine ⟨suits, Nat.le_of_not_lt (fun above => ?_)⟩
  rcases suits with same | ⟨-, aligned⟩
  · -- the search began at or below this bucket
    rcases within.suitable with equal | ⟨higher, -⟩ <;> omega
  · exact nextAligned_least within.fine.valid _ i found above below aligned

theorem passed_of_popped (sized : scheme.Sized) (within : request.Within pool i)
    (data : (s.world.bucket a i).pData = pool.pData i)
    (here : s.errand t = .popping request i point)
    (steps : PoolBucket.AllocSteps s.world.toMachine a i point onward m)
    (passed : (((s.become m).popped scheme t request i onward).errand t).Passed scheme j) :
    (s.errand t).Passed scheme j ∨ (s.world.bucket a j).head = TaggedIndex.invalid := by
  rw [here]
  cases steps with
  | null =>
      have gone : ((s.become s.world.toMachine).popped scheme t request i (.returns 0)).errand t =
          onMiss scheme request i := Function.update_self _ _ _
      rw [gone] at passed
      rcases passed_of_onMiss sized within passed with ⟨suits, below⟩
      left
      refine ⟨suits, ?_⟩
      rcases Nat.lt_or_eq_of_le below with before | same
      · exact Or.inl before
      · exact Or.inr ⟨same, rfl⟩
  | read headValue running =>
      have gone : ((s.become s.world.toMachine).popped scheme t request i
          (.stays (.allocRead headValue (TaggedIndex.load s.world.mem
            ((s.world.bucket a i).pData + headValue.offset.toNat))))).errand t =
          .popping request i _ := Function.update_self _ _ _
      rw [gone] at passed
      rcases passed with ⟨suits, before | ⟨-, impossible⟩⟩
      · exact Or.inl ⟨suits, Or.inl before⟩
      · cases impossible
  | pop headValue nextValue same =>
      have nonzero : (s.world.bucket a i).pData + headValue.offset.toNat ≠ 0 := by
        rw [data]
        exact pool.block_ne_zero i _
      have gone : forall s : AtomicPool, (s.goto t .idle).errand t = .idle :=
        fun _ => Function.update_self _ _ _
      rw [popped_returns nonzero, gone] at passed
      cases passed
  | reload headValue nextValue other =>
      have gone : ((s.become s.world.toMachine).popped scheme t request i
          (.stays (.allocLoaded (s.world.bucket a i).head))).errand t =
          .popping request i _ := Function.update_self _ _ _
      rw [gone] at passed
      rcases passed with ⟨suits, before | ⟨rfl, empty⟩⟩
      · exact Or.inl ⟨suits, Or.inl before⟩
      · right
        injection empty

/-- A step of the thread passes a bucket only if it finds it empty. -/
theorem Known.passed_proceed (sized : scheme.Sized) (known : Known pool a rest s inner)
    (passed : ((s.proceed scheme a t).errand t).Passed scheme j) :
    (s.errand t).Passed scheme j ∨ (s.world.bucket a j).head = TaggedIndex.invalid := by
  have standing := known.fits.standing
  have fine := standing.errands t
  have gone : forall (s : AtomicPool) (errand : Errand), (s.goto t errand).errand t = errand :=
    fun _ _ => Function.update_self _ _ _
  cases here : s.errand t with
  | idle =>
      simp only [proceed, here] at passed
      cases passed
  | round request i =>
      rw [here] at fine
      simp only [proceed, here] at passed
      split at passed
      next inside =>
        rw [gone] at passed
        rcases passed with ⟨suits, before | ⟨rfl, empty⟩⟩
        · exact Or.inl ⟨suits, before⟩
        · right
          injection empty
      next outside =>
        rw [gone] at passed
        exact Or.inl ⟨passed.1, Nat.lt_of_lt_of_le passed.2 (Nat.le_of_not_lt outside)⟩
  | popping request i point =>
      rw [here] at fine
      rcases fine with ⟨within, inAlloc⟩
      simp only [proceed, here] at passed
      have steps := PoolBucket.allocSteps s.world.toMachine a i inAlloc
      rw [← here]
      exact passed_of_popped sized within (known.data within.bound) here steps passed
  | generic request =>
      simp only [proceed, here, gone] at passed
      cases passed
  | pushing i point =>
      simp only [proceed, here] at passed
      generalize PoolBucket.freeIntervalStep s.world.toMachine a i point = result at passed
      obtain ⟨onward, m⟩ := result
      cases onward with
      | stays point =>
          rw [pushed, gone] at passed
          cases passed
      | returns p =>
          rw [pushed, gone] at passed
          cases passed

/-- A call that has just begun has passed nothing. -/
theorem not_passed_begun (idle : s.errand t = .idle) :
    ¬ ((s.step scheme a (.alloc t bytesCount alignment)).errand t).Passed scheme j := by
  intro passed
  simp only [step, beginAlloc] at passed
  split at passed
  · rw [idle] at passed
    cases passed
  · have gone : forall (s : AtomicPool) (errand : Errand), (s.goto t errand).errand t = errand :=
      fun _ _ => Function.update_self _ _ _
    rw [gone] at passed
    rcases passed with ⟨same | ⟨above, -⟩, below⟩
    · exact Nat.ne_of_lt below same
    · exact Nat.lt_asymm above below

theorem not_passed_freed {p : Nat} (idle : s.errand t = .idle) :
    ¬ ((s.step scheme a (.free t p)).errand t).Passed scheme j := by
  intro passed
  simp only [step, beginFree] at passed
  split at passed
  · rw [idle] at passed
    cases passed
  · split at passed
    · have gone : forall (s : AtomicPool) (errand : Errand), (s.goto t errand).errand t = errand :=
        fun _ _ => Function.update_self _ _ _
      rw [gone] at passed
      cases passed
    · have same : s.errand t = .idle := idle
      change (s.errand t).Passed scheme j at passed
      rw [same] at passed
      cases passed

/-! ## Runs -/

/-- In the call that thread `t` is in at the end of the run, one of its loads
found the list of bucket `j` empty. -/
def SawEmpty (scheme : Partitioning) (a _bucketsCount _bucketSizeInBytes : Nat)
    (first : AtomicPool) (moves : List PoolMove) (t j : Nat) : Prop :=
  ∃ before later, moves = before ++ .proceed t :: later ∧
    (forall bytesCount alignment, .alloc t bytesCount alignment ∉ later) ∧
    (((system scheme a _bucketsCount _bucketSizeInBytes).run first before).world.bucket a j).head =
      TaggedIndex.invalid

theorem SawEmpty.append (saw : SawEmpty scheme a _bucketsCount _bucketSizeInBytes first moves t j)
    (goesOn : forall bytesCount alignment, move ≠ .alloc t bytesCount alignment) :
    SawEmpty scheme a _bucketsCount _bucketSizeInBytes first (moves ++ [move]) t j := by
  rcases saw with ⟨before, later, parts, same, empty⟩
  refine ⟨before, later ++ [move], ?_, ?_, empty⟩
  · rw [parts, List.append_assoc]
    rfl
  · intro bytesCount alignment member
    rcases List.mem_append.mp member with inside | last
    · exact same bytesCount alignment inside
    · exact goesOn bytesCount alignment (List.mem_singleton.mp last).symm

/-- Whatever a call has passed, it has seen empty. -/
theorem sawEmpty (integral : scheme ≠ .float)
    (wellFormed : WellFormed scheme _bucketsCount _bucketSizeInBytes)
    (twoBlocks : TwoBlocks scheme _bucketsCount _bucketSizeInBytes)
    (start : (system scheme a _bucketsCount _bucketSizeInBytes).start first)
    (permitted : (system scheme a _bucketsCount _bucketSizeInBytes).Permitted first moves)
    (passed : (((system scheme a _bucketsCount _bucketSizeInBytes).run first moves).errand t).Passed
      scheme j) : SawEmpty scheme a _bucketsCount _bucketSizeInBytes first moves t j := by
  have sized := Partitioning.sized integral
  induction moves using List.reverseRecOn with
  | nil =>
      rcases start with ⟨w, -, -, rfl⟩
      cases passed
  | append_singleton moves move ih =>
      rcases (Transition.permitted_append _ _ _ _).mp permitted with ⟨earlier, allowed, -⟩
      have reachable := (Transition.Reachable.start start).after earlier
      rw [Transition.run_append] at passed
      have last : move.thread = some t ∨ move.thread ≠ some t := em _
      rcases last with own | others
      · cases move with
        | alloc u bytesCount alignment =>
            cases own
            exact absurd passed (not_passed_begun allowed.1)
        | free u p =>
            cases own
            exact absurd passed (not_passed_freed allowed.1)
        | write p k v => cases own
        | proceed u =>
            cases own
            rcases reachable_fits wellFormed sized twoBlocks reachable with
              ⟨pool, rest, inner, roomy, -, reached, fits⟩
            rcases (roomy.known fits reached).passed_proceed sized passed with before | empty
            · refine (ih earlier before).append ?_
              intro bytesCount alignment impossible
              cases impossible
            · exact ⟨moves, [], rfl, fun _ _ => List.not_mem_nil, empty⟩
      · have kept : (((system scheme a _bucketsCount _bucketSizeInBytes).run first moves).step
            scheme a move).errand t =
            ((system scheme a _bucketsCount _bucketSizeInBytes).run first moves).errand t :=
          step_errand_of_ne others
        change (((system scheme a _bucketsCount _bucketSizeInBytes).run first moves).step
          scheme a move |>.errand t).Passed scheme j at passed
        rw [kept] at passed
        refine (ih earlier passed).append ?_
        rintro bytesCount alignment rfl
        exact others rfl

/-- A call of `Allocate` that looks into a larger class has seen every earlier
list of its search empty, and a call that goes to the fallback heap has seen
all of them empty, each at a load of its own. -/
theorem spills_when_empty (integral : scheme ≠ .float)
    (wellFormed : WellFormed scheme _bucketsCount _bucketSizeInBytes)
    (twoBlocks : TwoBlocks scheme _bucketsCount _bucketSizeInBytes)
    (start : (system scheme a _bucketsCount _bucketSizeInBytes).start first)
    (permitted : (system scheme a _bucketsCount _bucketSizeInBytes).Permitted first moves) :
    let last := (system scheme a _bucketsCount _bucketSizeInBytes).run first moves
    (forall request i point, last.errand t = .popping request i point ->
      forall j, request.Suits scheme j -> j < i ->
        SawEmpty scheme a _bucketsCount _bucketSizeInBytes first moves t j) ∧
    forall request, last.errand t = .generic request ->
      forall j, request.Suits scheme j -> j < request.maxBucketIndex ->
        SawEmpty scheme a _bucketsCount _bucketSizeInBytes first moves t j := by
  intro last
  refine ⟨?_, ?_⟩
  · intro request i point here j suits below
    apply sawEmpty integral wellFormed twoBlocks start permitted
    change (last.errand t).Passed scheme j
    rw [here]
    exact ⟨suits, Or.inl below⟩
  · intro request here j suits below
    apply sawEmpty integral wellFormed twoBlocks start permitted
    change (last.errand t).Passed scheme j
    rw [here]
    exact ⟨suits, below⟩

/-- All 62 buckets, of one page each.  The last of them has four blocks. -/
def pages : AtomicPool :=
  ⟨(Session.initial .linear everyOtherPage 0 62 4096).world, [], fun _ => .idle, fun _ => 0⟩

/-- Thread 0 asks for a block of the last class. -/
def pagesCall : List PoolMove := [.alloc 0 992 4, .proceed 0, .proceed 0, .proceed 0]

/-- It takes the four blocks, and asks for one more. -/
def drainingRun : List PoolMove := pagesCall ++ pagesCall ++ pagesCall ++ pagesCall ++ pagesCall

theorem pages_wellFormed : WellFormed .linear 62 4096 :=
  ⟨⟨by decide, by decide, by decide⟩, by decide⟩

theorem pages_twoBlocks : TwoBlocks .linear 62 4096 := by
  unfold TwoBlocks
  decide

theorem pages_start : (system .linear 0 62 4096).start pages :=
  ⟨World.initial everyOtherPage, World.initial_fresh everyOtherPage 0, by decide, rfl⟩

theorem pagesCall_permitted (idle : s.errand 0 = .idle) :
    (system .linear 0 62 4096).Permitted s pagesCall :=
  ⟨⟨idle, by decide, valid_four⟩, trivial, trivial, trivial, trivial⟩

theorem drainingRun_permitted : (system .linear 0 62 4096).Permitted pages drainingRun := by
  have split := Transition.permitted_append (system .linear 0 62 4096)
  refine (split _ _ _).mpr ⟨(split _ _ _).mpr ⟨(split _ _ _).mpr ⟨(split _ _ _).mpr
    ⟨pagesCall_permitted rfl, pagesCall_permitted ?_⟩, pagesCall_permitted ?_⟩,
    pagesCall_permitted ?_⟩, pagesCall_permitted ?_⟩ <;> decide +kernel

theorem spills_when_empty_pages : SawEmpty .linear 0 62 4096 pages drainingRun 0 61 := by
  have here : ((system .linear 0 62 4096).run pages drainingRun).errand 0 =
      .generic ⟨992, 4, 62⟩ := by decide +kernel
  exact (spills_when_empty (by decide) pages_wellFormed pages_twoBlocks pages_start
    drainingRun_permitted).2 _ here 61 (Or.inl (by decide)) (by decide)

end AtomicPool

end SmMalloc
