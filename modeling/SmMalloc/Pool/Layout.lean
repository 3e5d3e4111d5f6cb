import SmMalloc.Pool.Routing
import SmMalloc.Pool.Start

namespace SmMalloc

open Foundation

/-!
# The layout that Init leaves, for sizes that do not fit

`Create` stores the first node of a list without looking whether a block fits,
while `GetBucketElementsCount` divides.  The theorem here says exactly which
configurations survive the difference: every size class has to fit into a
bucket for the list to be what is advertised.
-/

variable {scheme : Partitioning} {w w' : World} {a i : Nat}
variable {_bucketsCount _bucketSizeInBytes : Nat}

/-! ## The advertised pool -/

/-- The list of bucket `i` visits exactly `nodes`. -/
def World.Lists (w : World) (a i : Nat) (nodes : List Nat) : Prop :=
  TaggedIndex.kind.Linked (linksAt w.mem (w.bucket a i).pData) (w.bucket a i).head nodes

/-- The offsets that a bucket advertises. -/
def advertised (scheme : Partitioning) (alloc : Allocator) (i : Nat) : List Nat :=
  (List.range (Allocator.getBucketElementsCount scheme alloc i)).map
    (fun k => k * scheme.getBucketSizeInBytesByIndex i)

/-- Every bucket has exactly the blocks that it advertises on its list; they
lie inside the bucket and do not overlap. -/
structure Advertised (scheme : Partitioning) (w : World) (a : Nat) : Prop where
  lists : forall i, i < (w.allocs a).bucketsCount ->
    w.Lists a i (advertised scheme (w.allocs a) i)
  inside : forall i nodes, i < (w.allocs a).bucketsCount -> w.Lists a i nodes ->
    forall o, o ∈ nodes ->
      o + scheme.getBucketSizeInBytesByIndex i ≤ (w.allocs a).bucketSizeInBytes ∧
      (w.bucket a i).pData + o + scheme.getBucketSizeInBytesByIndex i ≤
        (w.allocs a).pBuffer + (w.allocs a).bucketsCount * (w.allocs a).bucketSizeInBytes
  apart : forall i nodes j nodes', i < (w.allocs a).bucketsCount -> w.Lists a i nodes ->
    j < (w.allocs a).bucketsCount -> w.Lists a j nodes' ->
    forall o o', o ∈ nodes -> o' ∈ nodes' -> (i, o) ≠ (j, o') ->
      (w.bucket a i).pData + o + scheme.getBucketSizeInBytesByIndex i ≤
          (w.bucket a j).pData + o' ∨
        (w.bucket a j).pData + o' + scheme.getBucketSizeInBytesByIndex j ≤
          (w.bucket a i).pData + o

/-- The list that `Create` has built, whether or not a block fits. -/
theorem Initialised.lists (init : Initialised scheme _bucketsCount _bucketSizeInBytes a w w')
    (arguments : InitArguments _bucketsCount _bucketSizeInBytes)
    (bound : i < min _bucketsCount maxBucketCount) :
    w'.Lists a i ((List.range (createdCount (scheme.getBucketSizeInBytesByIndex i)
      (align _bucketSizeInBytes kMaxValidAlignment))).map
        (fun k => k * scheme.getBucketSizeInBytesByIndex i)) := by
  have laid := init.buckets i bound
  have positive := scheme.size_pos (i := i) (Nat.lt_of_lt_of_le bound (Nat.min_le_right _ _))
  have small := arguments.aligned.2.1
  have difference : (w'.bucket a i).pBufferEnd - (w'.bucket a i).pData =
      align _bucketSizeInBytes kMaxValidAlignment := by
    rw [laid.bufferEnd, init.bucketSizeInBytes]
    omega
  have links := laid.created.links
  rw [difference] at links
  rw [World.Lists, laid.created.head]
  apply created_linked _ links
  intro k inside
  unfold createdCount at inside
  by_cases first : k = 0
  · subst first
    omega
  · have fits := cell_end_le (by omega : k < align _bucketSizeInBytes kMaxValidAlignment /
      scheme.getBucketSizeInBytesByIndex i)
    omega

theorem Initialised.getBucketElementsCount
    (init : Initialised scheme _bucketsCount _bucketSizeInBytes a w w')
    (arguments : InitArguments _bucketsCount _bucketSizeInBytes)
    (bound : i < min _bucketsCount maxBucketCount) :
    Allocator.getBucketElementsCount scheme (w'.allocs a) i =
      align _bucketSizeInBytes kMaxValidAlignment / scheme.getBucketSizeInBytesByIndex i := by
  have positive := scheme.size_pos (i := i) (Nat.lt_of_lt_of_le bound (Nat.min_le_right _ _))
  have small := arguments.aligned.2.1
  have quotient : align _bucketSizeInBytes kMaxValidAlignment /
      scheme.getBucketSizeInBytesByIndex i ≤ align _bucketSizeInBytes kMaxValidAlignment / 16 :=
    Nat.div_le_div_left positive (by decide)
  rw [Allocator.getBucketElementsCount, init.bucketsCount, if_neg (Nat.not_le_of_lt bound),
    init.bucketSizeInBytes]
  exact Nat.mod_eq_of_lt (by omega)

/-- A size class that does not fit has a block on its list all the same. -/
theorem Initialised.fits_of_advertised
    (init : Initialised scheme _bucketsCount _bucketSizeInBytes a w w')
    (arguments : InitArguments _bucketsCount _bucketSizeInBytes)
    (advertises : Advertised scheme w' a) (bound : i < min _bucketsCount maxBucketCount) :
    scheme.getBucketSizeInBytesByIndex i ≤ align _bucketSizeInBytes kMaxValidAlignment := by
  by_contra large
  have tooSmall : align _bucketSizeInBytes kMaxValidAlignment /
      scheme.getBucketSizeInBytesByIndex i = 0 := Nat.div_eq_of_lt (Nat.lt_of_not_le large)
  have built := init.lists arguments bound
  have said := advertises.lists i (init.bucketsCount ▸ bound)
  rw [advertised, init.getBucketElementsCount arguments bound, tooSmall] at said
  rw [createdCount, tooSmall] at built
  cases LinkKind.Linked.unique built said

/-- Size classes that fit are laid out as advertised. -/
theorem Initialised.advertised_of_fits
    (init : Initialised scheme _bucketsCount _bucketSizeInBytes a w w')
    (arguments : InitArguments _bucketsCount _bucketSizeInBytes)
    (fits : forall i, i < min _bucketsCount maxBucketCount ->
      scheme.getBucketSizeInBytesByIndex i ≤ align _bucketSizeInBytes kMaxValidAlignment) :
    Advertised scheme w' a := by
  have listed : forall i, i < min _bucketsCount maxBucketCount ->
      w'.Lists a i (advertised scheme (w'.allocs a) i) := by
    intro i bound
    have positive := scheme.size_pos (i := i) (Nat.lt_of_lt_of_le bound (Nat.min_le_right _ _))
    have built := init.lists arguments bound
    have some : 1 ≤ align _bucketSizeInBytes kMaxValidAlignment /
        scheme.getBucketSizeInBytesByIndex i := Nat.div_pos (fits i bound) (by omega)
    rw [createdCount, Nat.max_eq_right some] at built
    rw [advertised, init.getBucketElementsCount arguments bound]
    exact built
  have pData : forall i, i < min _bucketsCount maxBucketCount -> (w'.bucket a i).pData =
      (w'.allocs a).pBuffer + i * align _bucketSizeInBytes kMaxValidAlignment := by
    intro i bound
    rw [(init.buckets i bound).pData, init.bucketSizeInBytes]
  -- what is visited is a multiple of the element size, with room for a block
  have visited : forall i nodes, i < min _bucketsCount maxBucketCount -> w'.Lists a i nodes ->
      forall o, o ∈ nodes -> ∃ k, o = k * scheme.getBucketSizeInBytesByIndex i ∧
        o + scheme.getBucketSizeInBytesByIndex i ≤
          align _bucketSizeInBytes kMaxValidAlignment := by
    intro i nodes bound lists o member
    rw [LinkKind.Linked.unique (listed i bound) lists, advertised,
      init.getBucketElementsCount arguments bound] at member
    rcases List.mem_map.mp member with ⟨k, inside, rfl⟩
    exact ⟨k, rfl, cell_end_le (List.mem_range.mp inside)⟩
  refine ⟨fun i bound => listed i (init.bucketsCount ▸ bound), ?_, ?_⟩
  · intro i nodes bound lists o member
    rw [init.bucketsCount] at bound ⊢
    rcases visited i nodes bound lists o member with ⟨k, -, within⟩
    have last := cell_le bound (align _bucketSizeInBytes kMaxValidAlignment)
    rw [pData i bound, init.bucketSizeInBytes]
    omega
  · intro i nodes j nodes' boundI listsI boundJ listsJ o o' member member' different
    rw [init.bucketsCount] at boundI boundJ
    rcases visited i nodes boundI listsI o member with ⟨k, multiple, within⟩
    rcases visited j nodes' boundJ listsJ o' member' with ⟨k', multiple', within'⟩
    rw [pData i boundI, pData j boundJ]
    rcases Nat.lt_trichotomy i j with before | same | after
    · have gap := cell_le before (align _bucketSizeInBytes kMaxValidAlignment)
      omega
    · subst same
      have other : k ≠ k' := by
        rintro rfl
        exact different (by rw [multiple, multiple'])
      have apart := cells_apart other (scheme.getBucketSizeInBytesByIndex i)
      rw [← multiple, ← multiple'] at apart
      omega
    · have gap := cell_le after (align _bucketSizeInBytes kMaxValidAlignment)
      omega

/-- `Init` leaves the advertised pool exactly if every size class fits into a bucket. -/
theorem init_advertised_iff (scheme : Partitioning)
    (arguments : InitArguments _bucketsCount _bucketSizeInBytes)
    (fresh : (w.allocs a).bucketsCount = 0) :
    Advertised scheme (Allocator.init scheme w a _bucketsCount _bucketSizeInBytes) a <->
      forall i, i < min _bucketsCount maxBucketCount ->
        scheme.getBucketSizeInBytesByIndex i ≤ align _bucketSizeInBytes kMaxValidAlignment := by
  have init := init_spec (a := a) scheme arguments fresh
  exact ⟨fun advertises _ bound => init.fits_of_advertised arguments advertises bound,
    init.advertised_of_fits arguments⟩

theorem init_advertised_onePage :
    Advertised .piecewise (Allocator.init .piecewise (World.initial everyOtherPage) 0 1 4096) 0 <->
      forall i, i < min 1 maxBucketCount ->
        Partitioning.piecewise.getBucketSizeInBytesByIndex i ≤ align 4096 kMaxValidAlignment :=
  init_advertised_iff (w := World.initial everyOtherPage) (a := 0) .piecewise
    ⟨by decide, by decide, by decide⟩ rfl

/-- With 22 buckets of one page, class 21 has elements of 4608 bytes. -/
theorem init_unadvertised_22 :
    ¬ Advertised .piecewise (Allocator.init .piecewise (World.initial everyOtherPage) 0 22 1) 0 := by
  intro advertises
  have arguments : InitArguments 22 1 := ⟨by decide, by decide, by decide⟩
  have init := init_spec (w := World.initial everyOtherPage) (a := 0) .piecewise arguments rfl
  exact absurd (init.fits_of_advertised (i := 21) arguments advertises (by decide)) (by decide)

end SmMalloc
