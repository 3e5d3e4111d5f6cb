import SmMalloc.Session.Unsized

namespace SmMalloc

open Foundation

/-!
# What a pool block offers to the client that gets it

Nothing in `Allocate` checks the block that it is about to return.  That the
block is large enough and aligned follows from the choice of the bucket, and
that it lies in the bucket and overlaps nothing else that is held follows from
the state of the session.
-/

variable {scheme : Partitioning} {a t bytesCount alignment : Nat} {s : Session}
variable {_bucketsCount _bucketSizeInBytes : Nat}

/-- The block of bucket `j` at `p` satisfies a request, next to what is held. -/
structure Placed (scheme : Partitioning) (w : World) (a : Nat) (held : List Nat)
    (bytesCount alignment p j : Nat) : Prop where
  large : bytesCount ≤ scheme.getBucketSizeInBytesByIndex j
  aligned : alignment ∣ p
  begins : (w.bucket a j).pData ≤ p
  ends : p + scheme.getBucketSizeInBytesByIndex j ≤ (w.bucket a j).pBufferEnd
  apart : forall q, q ∈ held -> p + scheme.getBucketSizeInBytesByIndex j ≤ q ∨
    q + Allocator.getUsableSize scheme w a q ≤ p

/-- Whatever `Allocate` takes from a pool is well placed, in any sound machine. -/
theorem Sound.placed {pool : Pool scheme} {rest out : List Nat} {w w' : World} {p : Nat}
    (sound : Sound pool a rest w.toMachine out) (positive : 0 < bytesCount)
    (bound : bytesCount < 2 ^ 64) (valid : ValidAlignment alignment)
    (allocated : Allocated pool a t bytesCount alignment out w.toMachine p w'.toMachine)
    (inside : pool.findBucket p < pool.bucketsCount) :
    Placed scheme w' a out bytesCount alignment p (pool.findBucket p) := by
  obtain ⟨machine, isMachine⟩ : ∃ machine, machine = w'.toMachine := ⟨_, rfl⟩
  rw [← isMachine] at allocated
  cases allocated with
  | generic => exact absurd inside (Nat.not_lt_of_le (sound.inv.answer_elsewhere positive))
  | block j o bound' suitable exhausted taken =>
      rw [isMachine] at taken
      have after := sound.taken bound' taken
      have represents := after.inv.represents
      have block := taken.block
      have fits := suitable.fits pool.sized positive bound valid
        (Nat.lt_of_lt_of_le bound' pool.count_le)
      have first : Extent pool w'.toMachine ((pool.pData j + o) :: out) (pool.pData j + o)
          (pool.elementSize j) := by
        apply Extent.block j o bound' block rfl
        rw [Pool.offsets_cons_block bound' block]
        exact List.mem_cons_self
      rw [Pool.findBucket_block bound' block]
      refine ⟨fits.1, aligned_block valid block fits.2, ?_, ?_, ?_⟩
      · rw [Machine.bucket, represents.pData j bound']
        exact Nat.le_add_right _ _
      · rw [Machine.bucket, represents.bufferEnd j bound']
        have within := block.end_le bound'
        change pool.pData j + o + pool.elementSize j ≤ _
        omega
      · intro q member
        apply after.extents_apart first (after.extent (List.mem_cons_of_mem _ member))
        rintro rfl
        exact after.fresh member

/-- In every session, a pool block that `Alloc` returns is large enough,
aligned, inside its bucket and apart from everything that is held. -/
theorem Session.placement (integral : scheme ≠ .float)
    (wellFormed : WellFormed scheme _bucketsCount _bucketSizeInBytes)
    (reachable : (Session.system scheme a _bucketsCount _bucketSizeInBytes).Reachable s)
    (positive : 0 < bytesCount) (bytesBound : bytesCount < 2 ^ 64)
    (valid : ValidAlignment alignment)
    (inside : ((Allocator.alloc scheme s.world a t bytesCount alignment).2.allocs a).findBucket
        (Allocator.alloc scheme s.world a t bytesCount alignment).1 <
      ((Allocator.alloc scheme s.world a t bytesCount alignment).2.allocs a).bucketsCount) :
    Placed scheme (Allocator.alloc scheme s.world a t bytesCount alignment).2 a s.held
      bytesCount alignment (Allocator.alloc scheme s.world a t bytesCount alignment).1
      (((Allocator.alloc scheme s.world a t bytesCount alignment).2.allocs a).findBucket
        (Allocator.alloc scheme s.world a t bytesCount alignment).1) := by
  rcases Session.reachable_sound wellFormed (Partitioning.sized integral) reachable with
    ⟨pool, rest, -, sound⟩
  have nonempty : bytesCount ≠ 0 := Nat.ne_of_gt positive
  have allocated := SmMalloc.Sound.request sound t valid nonempty
  have after : SmMalloc.Sound pool a rest
      (Allocator.alloc scheme s.world a t bytesCount alignment).2.toMachine _ := sound.alloc valid
  have represents := after.inv.represents
  rw [represents.findBucket, represents.bucketsCount] at inside
  rw [represents.findBucket]
  exact SmMalloc.Sound.placed sound positive bytesBound valid allocated inside

theorem Session.placement_onePage :
    Placed .piecewise (Allocator.alloc .piecewise Session.onePageUsed.world 0 0 5 4).2 0
      Session.onePageUsed.held 5 4 8192 0 :=
  Session.placement (by decide) (onePage_wellFormed (by decide)) Session.onePageUsed_reachable
    (by decide) (by decide) valid_four (by decide)

/-- The blocks of both levels are had again, down to the block at 8208, and
thread 1 has the first block. -/
def Session.overlapAgain : List Op := allocMany 8 ++ [.alloc 1 16 4]

/-- The link of the first block leads to a block that thread 0 has already. -/
theorem Session.placement_overlap :
    ∃ s, (unsizedSystem .piecewise 0 1 4096).Reachable s ∧
      let served := Allocator.alloc .piecewise s.world 0 1 16 4
      (served.2.allocs 0).findBucket served.1 < (served.2.allocs 0).bucketsCount ∧
        ¬ Placed .piecewise served.2 0 s.held 16 4 served.1
          ((served.2.allocs 0).findBucket served.1) := by
  have again : (unsizedSystem .piecewise 0 1 4096).Permitted overlapped overlapAgain := by
    refine (Transition.permitted_append _ _ _ _).mpr ⟨?_, ⟨by decide, valid_four⟩, trivial⟩
    exact allocMany_permitted (unsizedSystem .piecewise 0 1 4096)
      (fun _ => ⟨by decide, valid_four⟩) 8 _
  refine ⟨_, (overlapping_reachable.after
    (overlapRest_permitted overlapRun_permitted.2)).after again, ?_⟩
  intro served
  have outcome : served.1 = 8208 ∧
      8208 ∈ ((unsizedSystem .piecewise 0 1 4096).run overlapped overlapAgain).held ∧
      (served.2.allocs 0).findBucket 8208 = 0 ∧ (served.2.allocs 0).bucketsCount = 1 ∧
      Allocator.getUsableSize .piecewise served.2 0 8208 = 16 := by
    decide +kernel
  rcases outcome with ⟨result, held, found, count, usable⟩
  rw [result, found, count]
  refine ⟨Nat.zero_lt_one, fun placed => ?_⟩
  have apart := placed.apart 8208 held
  have size : Partitioning.piecewise.getBucketSizeInBytesByIndex 0 = 16 := by decide
  omega

end SmMalloc
