import SmMalloc.Session.Share
import SmMalloc.Session.Unsized

namespace SmMalloc

open Foundation

/-!
# When the assertions hold

Three things that the interface permits make an assertion fail.  A request close
to the size of the address space rounds up to zero, which has no size class.
The number of slots of a stack may wrap around.  And a warm-up that finds fewer
blocks than it was told to take ends early, as it should, but then `Init`
insists on the full number.  Without these no assertion fails in any session,
whatever else the threads do.
-/

variable {scheme : Partitioning} {pool : Pool scheme} {s : Session} {a t p : Nat}
variable {bytesCount alignment : Nat} {rest : List Nat} {_bucketsCount _bucketSizeInBytes : Nat}

/-- The request is not so large that rounding it up wraps around.  The linear
scheme does not look at the rounded size. -/
def RoundsUp (scheme : Partitioning) (bytesCount alignment : Nat) : Prop :=
  scheme = .piecewise -> bytesCount + alignment ≤ 2 ^ 64

theorem RoundsUp.classChecked (roundsUp : RoundsUp scheme bytesCount alignment)
    (integral : scheme ≠ .float) (valid : ValidAlignment alignment) (positive : 0 < bytesCount) :
    ClassChecked scheme bytesCount alignment := by
  intro w
  unfold World.checkBucketIndexBySize
  cases scheme with
  | linear => rfl
  | float => exact absurd rfl integral
  | piecewise =>
      have atLeast := le_align valid positive (roundsUp rfl)
      exact World.check_true w (decide_eq_true (Nat.lt_of_lt_of_le positive atLeast))

namespace Session

/-- The step is none of the three.  A thread cache is created with a stack whose
slots can be counted, and only with blocks that there are. -/
def Careful (scheme : Partitioning) (a : Nat) (s : Session) : Op -> Prop
  | .alloc _ bytesCount alignment => bytesCount = 0 ∨ RoundsUp scheme bytesCount alignment
  | .realloc _ _ bytesCount alignment => bytesCount = 0 ∨ RoundsUp scheme bytesCount alignment
  | .createThreadCache _ warmupOptions options => forall i v, options[i]? = some v ->
      v + maxCacheItemsCount < 2 ^ 32 ∧ forall central, s.CentralList a i central ->
        warmupOptions.amount v ≤ central.length
  | _ => True

/-- A careful step is one to which `Init` has no objection. -/
theorem Careful.asserted {op : Op} (unsized : AllowedUnsized scheme a s op)
    (careful : Careful scheme a s op) : op.Asserted := by
  cases op with
  | createThreadCache t warmupOptions options =>
      intro v member
      rcases List.getElem?_of_mem member with ⟨i, found⟩
      have entry := unsized.2.2.1 v member
      exact (stackElements_asserted entry.2).mpr ⟨entry.1, (careful i v found).1⟩
  | alloc => trivial
  | free => trivial
  | realloc => trivial
  | destroyThreadCache => trivial
  | write => trivial

/-- No assertion has failed, but for the one about the number of buckets that
`Init` is given. -/
def AssertionsHold (s : Session) : Prop :=
  forall site, site ∈ s.world.failed -> site = .initBucketsCount

namespace Sound

theorem alloc_failed (sound : s.Sound pool a rest) (integral : scheme ≠ .float)
    (valid : ValidAlignment alignment)
    (careful : bytesCount = 0 ∨ RoundsUp scheme bytesCount alignment) :
    (Allocator.alloc scheme s.world a t bytesCount alignment).2.failed = s.world.failed := by
  by_cases empty : bytesCount = 0
  · subst empty
    rw [alloc_empty valid]
  · have checked := (careful.resolve_left empty).classChecked integral valid (by omega)
    have allocated := (PoolInv.allocate sound.inv true (t := t) valid empty
      (fun _ => (SmMalloc.Sound.ready sound t).usable _)).2
    rw [checked s.world] at allocated
    exact allocated

theorem free_failed (sound : s.Sound pool a rest) (returnable : s.Returnable p) :
    (Allocator.free s.world a t p).failed = s.world.failed := by
  rcases returnable with small | member
  · rw [free_empty small]
  · exact ((sound.returned member).free t).2.2.2

theorem realloc_failed (sound : s.Sound pool a rest) (integral : scheme ≠ .float)
    (returnable : s.Returnable p) (bytesBound : bytesCount < 2 ^ 64)
    (valid : ValidAlignment alignment)
    (careful : bytesCount = 0 ∨ RoundsUp scheme bytesCount alignment) :
    (Allocator.realloc scheme s.world a t p bytesCount alignment).2.failed = s.world.failed := by
  by_cases small : p ≤ kMaxValidAlignment
  · rw [realloc_empty small]
    exact sound.alloc_failed integral valid careful
  have member := returnable.resolve_left small
  have above := Nat.lt_of_not_le small
  by_cases empty : bytesCount = 0
  · rw [empty, realloc_zero above]
    exact sound.free_failed returnable
  · have held := sound.returned member
    exact (held.inv.realloc (held.ready t) above (sound.readable member).2 valid empty
      bytesBound).2 ((careful.resolve_left empty).classChecked integral valid (by omega))

/-- A careful step fails no assertion. -/
theorem careful_failed {op : Op} (sound : s.Sound pool a rest) (integral : scheme ≠ .float)
    (allowed : Allowed scheme a s op) (careful : Careful scheme a s op) :
    (Session.step scheme a s op).world.failed = s.world.failed := by
  cases op with
  | alloc t bytesCount alignment => exact sound.alloc_failed integral allowed.2 careful
  | free t p => exact sound.free_failed allowed
  | realloc t p bytesCount alignment =>
      have failed := sound.realloc_failed (t := t) integral allowed.1 allowed.2.1 allowed.2.2 careful
      simp only [Session.step]
      split
      · exact failed
      split
      · exact failed
      split
      · exact failed
      · exact failed
  | createThreadCache t warmupOptions options =>
      have created := sound.created allowed
      rcases allowed with ⟨-, length, entries, -⟩
      have count := (SmMalloc.Sound.inv sound).represents.bucketsCount
      apply created.failed
      · exact fun v member => (entries v member).1
      · intro i v found central bucket
        rw [Nat.zero_add] at bucket
        have bound : i < pool.bucketsCount := by
          have := (List.getElem?_eq_some_iff.mp found).1
          omega
        exact (careful i v found).2 central ((sound.centralList_iff bound central).mpr bucket)
  | destroyThreadCache t => exact (SmMalloc.Sound.destroyThreadCache sound t).failed
  | write p k v => rfl

end Sound

/-- In a session of careful steps the assertions hold. -/
theorem assertions (integral : scheme ≠ .float)
    (wellFormed : WellFormed scheme _bucketsCount _bucketSizeInBytes)
    (reachable : ((unsizedSystem scheme a _bucketsCount _bucketSizeInBytes).restrict
      (Careful scheme a)).Reachable s) : s.AssertionsHold := by
  apply reachable.invariant
  · rintro first ⟨w, fresh, clean, -, rfl⟩
    have unused : (w.allocs a).bucketsCount = 0 := by rw [fresh.constructed]; rfl
    have failed := init_failed (Partitioning.sized integral) wellFormed.arguments unused
    intro site member
    change site ∈ (Allocator.init scheme w a _bucketsCount _bucketSizeInBytes).failed at member
    rw [failed, World.check] at member
    split at member
    · rw [clean] at member
      cases member
    · simp only [clean] at member
      exact List.mem_singleton.mp member
  · rintro before op earlier holds ⟨unsized, careful⟩
    have allowed := allowed_iff_asserted.mpr ⟨unsized, careful.asserted unsized⟩
    have asserted : ((unsizedSystem scheme a _bucketsCount _bucketSizeInBytes).restrict
        (fun _ op => op.Asserted)).Reachable before :=
      earlier.mono rfl (fun _ => id) (fun _ _ step => ⟨step.1, step.2.asserted step.1⟩)
    rcases reachable_sound wellFormed (Partitioning.sized integral)
      (reachable_iff_asserted.mpr asserted) with ⟨pool, rest, -, sound⟩
    intro site member
    change site ∈ (step scheme a before op).world.failed at member
    rw [sound.careful_failed integral allowed careful] at member
    exact holds site member

/-- Classes up to a page in buckets of a page: the last bucket has one block. -/
def classesOfPage : Session :=
  Session.initial .piecewise (fun k => 131072 * (k + 1)) 0 21 4096

theorem classesOfPage_reachable : (unsizedSystem .piecewise 0 21 4096).Reachable classesOfPage :=
  Transition.Reachable.start (initial_start (by decide))

/-- The largest request of all rounds up to zero, and a warm-up cannot take
two blocks out of a bucket that has one. -/
theorem assertions_fail_classesOfPage :
    (∃ s, (unsizedSystem .piecewise 0 21 4096).Reachable s ∧
      Assertion.getBucketIndexBySizeNotZero ∈ s.world.failed) ∧
    ∃ s, (unsizedSystem .piecewise 0 21 4096).Reachable s ∧
      Assertion.tlsInitCount ∈ s.world.failed := by
  constructor
  · have bound : 18446744073709551615 < 2 ^ 64 := by norm_num
    have allowed : (unsizedSystem .piecewise 0 21 4096).allowed classesOfPage
        (.alloc 0 18446744073709551615 4) := ⟨bound, valid_four⟩
    refine ⟨_, classesOfPage_reachable.step allowed, ?_⟩
    decide +kernel
  · have allowed : (unsizedSystem .piecewise 0 21 4096).allowed classesOfPage
        (.createThreadCache 0 .hot (List.replicate 21 2)) :=
      ⟨fun _ => rfl, by decide +kernel, by decide, by decide +kernel⟩
    refine ⟨_, classesOfPage_reachable.step allowed, ?_⟩
    decide +kernel

theorem assertions_onePage : onePageUsed.AssertionsHold := by
  have permitted : ((unsizedSystem .piecewise 0 1 4096).restrict
      (Careful .piecewise 0)).Permitted onePage onePageRun := by
    refine ⟨⟨⟨fun _ => rfl, by decide, by decide, by decide⟩, ?_⟩,
      ⟨⟨by decide, valid_four⟩, Or.inr (fun _ => by decide)⟩,
      ⟨Or.inr (by decide), trivial⟩, trivial⟩
    intro i v found
    have entry : v = 3 := List.mem_singleton.mp (List.mem_of_getElem? found)
    rw [entry]
    exact ⟨by decide, fun _ _ => Nat.zero_le _⟩
  have start : ((unsizedSystem .piecewise 0 1 4096).restrict
      (Careful .piecewise 0)).Reachable onePage :=
    Transition.Reachable.start (initial_start (by decide))
  have used := start.after permitted
  rw [Transition.run_restrict, Transition.run_congr (system .piecewise 0 1 4096)
    (unsizedSystem .piecewise 0 1 4096) (fun _ _ => rfl)] at used
  exact assertions (by decide) (onePage_wellFormed (by decide)) used

end Session

end SmMalloc
