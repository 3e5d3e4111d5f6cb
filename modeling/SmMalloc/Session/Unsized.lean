import SmMalloc.Session.Caches

namespace SmMalloc

open Foundation

/-!
# Stacks whose slots wrap around

An option and `maxCacheItemsCount` are added as 32-bit numbers.  `Init` asserts
that the sum leaves room for two blocks in level 1; this excludes the options 0
and 1, and just those for which the sum wraps around.  Without assertions it
goes on with a stack that has fewer slots than there are blocks in level 0, and
with a capacity of billions of blocks.  What is pushed past the slots goes to
whatever lies behind the stack.  Here a session may have such caches.
-/

variable {scheme : Partitioning} {s : Session} {a v : Nat}
variable {_bucketsCount _bucketSizeInBytes : Nat}

theorem stackElements_asserted (word : v < 2 ^ 32) :
    stackElements v ≥ maxCacheItemsCount + 2 <-> 2 ≤ v ∧ v + maxCacheItemsCount < 2 ^ 32 := by
  unfold stackElements maxCacheItemsCount
  omega

/-- A cache bucket with a wrapped stack still has the capacity of the option. -/
theorem stackElements_wrapped (word : v < 2 ^ 32) (wraps : 2 ^ 32 ≤ v + maxCacheItemsCount) :
    stackElements v < maxCacheItemsCount ∧
      (stackElements v + 2 ^ 32 - maxCacheItemsCount) % 2 ^ 32 = v := by
  unfold stackElements
  unfold maxCacheItemsCount at *
  omega

/-- What `Init` asserts of the stacks of a new cache. -/
def Op.Asserted : Op -> Prop
  | .createThreadCache _ _ options =>
      forall v, v ∈ options -> stackElements v ≥ maxCacheItemsCount + 2
  | _ => True

instance Op.decidableAsserted : forall op : Op, Decidable op.Asserted
  | .createThreadCache _ _ options => inferInstanceAs
      (Decidable (forall v, v ∈ options -> stackElements v ≥ maxCacheItemsCount + 2))
  | .alloc _ _ _ => inferInstanceAs (Decidable True)
  | .free _ _ => inferInstanceAs (Decidable True)
  | .realloc _ _ _ _ => inferInstanceAs (Decidable True)
  | .destroyThreadCache _ => inferInstanceAs (Decidable True)
  | .write _ _ _ => inferInstanceAs (Decidable True)

namespace Session

/-- The options are 32-bit numbers, and at least 2. -/
def AllowedUnsized (scheme : Partitioning) (a : Nat) (s : Session) : Op -> Prop
  | .createThreadCache t warmupOptions options =>
      s.Cacheless t ∧ options.length ≤ (s.world.allocs a).bucketsCount ∧
        (forall v, v ∈ options -> 2 ≤ v ∧ v < 2 ^ 32) ∧
        s.world.stacksServed scheme a t warmupOptions 0 options = true
  | op => s.Allowed scheme a op

/-- Sessions whose caches have stacks of any size. -/
def unsizedSystem (scheme : Partitioning) (a _bucketsCount _bucketSizeInBytes : Nat) :
    Transition Session Op where
  start := Start scheme a _bucketsCount _bucketSizeInBytes
  allowed := AllowedUnsized scheme a
  next := step scheme a

/-- What a session may do is what it may do here, as long as `Init` has no objection. -/
theorem allowed_iff_asserted {op : Op} :
    Allowed scheme a s op <-> AllowedUnsized scheme a s op ∧ op.Asserted := by
  cases op with
  | createThreadCache t warmupOptions options =>
      constructor
      · rintro ⟨cacheless, length, entries, served⟩
        refine ⟨⟨cacheless, length, fun v member => ?_, served⟩, fun v member => ?_⟩
        · have := entries v member
          omega
        · have := entries v member
          exact (stackElements_asserted (by omega)).mpr this
      · rintro ⟨⟨cacheless, length, entries, served⟩, asserted⟩
        refine ⟨cacheless, length, fun v member => ?_, served⟩
        exact (stackElements_asserted (entries v member).2).mp (asserted v member)
  | alloc => exact (and_iff_left trivial).symm
  | free => exact (and_iff_left trivial).symm
  | realloc => exact (and_iff_left trivial).symm
  | destroyThreadCache => exact (and_iff_left trivial).symm
  | write => exact (and_iff_left trivial).symm

/-- The sessions are those of `unsizedSystem` in which this assertion never fails. -/
theorem reachable_iff_asserted :
    (system scheme a _bucketsCount _bucketSizeInBytes).Reachable s <->
      ((unsizedSystem scheme a _bucketsCount _bucketSizeInBytes).restrict
        (fun _ op => op.Asserted)).Reachable s := by
  constructor
  · intro reachable
    exact reachable.mono rfl (fun _ => id) (fun _ _ => allowed_iff_asserted.mp)
  · intro reachable
    exact reachable.mono rfl (fun _ => id) (fun _ _ => allowed_iff_asserted.mpr)

/-! ## A stack without slots, right before the pool -/

/-- The pool begins at 8192. -/
def rightBefore (k : Nat) : Nat := if k = 0 then 8192 else 8128

def beforeOverlap : Session := initial .piecewise rightBefore 0 1 4096

/-- Thread 0 has 26 blocks and frees 23 of them.  Its stack has no slots, and
what it pushes next goes to the first block of the pool. -/
def overlapRun : List Op :=
  .createThreadCache 0 .cold [4294967289] ::
    (allocMany 26 ++ freeAll ((List.range 23).map (fun k => 8592 - 16 * k)))

def overlapping : Session := (unsizedSystem .piecewise 0 1 4096).run beforeOverlap overlapRun

/-- The first block is freed by thread 1, who has no cache, and the others by
thread 0, which writes over the link of the first. -/
def overlapRest : List Op := [.free 1 8192, .free 0 8224, .free 0 8208]

def overlapped : Session := (unsizedSystem .piecewise 0 1 4096).run overlapping overlapRest

theorem overlapRun_permitted :
    (unsizedSystem .piecewise 0 1 4096).Permitted beforeOverlap overlapRun ∧
      overlapping.held = [8224, 8208, 8192] := by
  have held : ((unsizedSystem .piecewise 0 1 4096).run beforeOverlap
      (.createThreadCache 0 .cold [4294967289] :: allocMany 26)).held =
        (List.range 23).map (fun k => 8592 - 16 * k) ++ [8224, 8208, 8192] := by
    decide +kernel
  have freed := freeAll_permitted (unsizedSystem .piecewise 0 1 4096) rfl
    (fun _ _ returnable => returnable) _ _ _ held
  have created : (unsizedSystem .piecewise 0 1 4096).Permitted beforeOverlap
      (.createThreadCache 0 .cold [4294967289] :: allocMany 26) :=
    ⟨⟨fun _ => rfl, by decide, by decide, by decide⟩,
      allocMany_permitted (unsizedSystem .piecewise 0 1 4096)
        (fun _ => ⟨by decide, valid_four⟩) 26 _⟩
  have parts : overlapRun = (.createThreadCache 0 .cold [4294967289] :: allocMany 26) ++
      freeAll ((List.range 23).map (fun k => 8592 - 16 * k)) := rfl
  rw [overlapping, parts, Transition.permitted_append, Transition.run_append]
  exact ⟨⟨created, freed.1⟩, freed.2⟩

theorem overlapRest_permitted {s : Session} (held : s.held = [8224, 8208, 8192]) :
    (unsizedSystem .piecewise 0 1 4096).Permitted s overlapRest := by
  refine ⟨Or.inr ?_, Or.inr ?_, Or.inr ?_, trivial⟩
  · rw [held]
    decide
  · change 8224 ∈ s.held.erase 8192
    rw [held]
    decide
  · change 8208 ∈ (s.held.erase 8192).erase 8224
    rw [held]
    decide

theorem overlapping_reachable : (unsizedSystem .piecewise 0 1 4096).Reachable overlapping :=
  (Transition.Reachable.start (initial_start (by decide))).after overlapRun_permitted.1

end Session

end SmMalloc
