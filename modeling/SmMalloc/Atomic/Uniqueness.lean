import SmMalloc.Atomic.Stack

namespace SmMalloc

open Foundation

/-!
# Tagged values are made once

`Create` makes the first head and a link for every block but the last, and
every call of `FreeInterval` makes one value.  The tag of the first head is the
tag of the first link, which the counter has left behind as soon as there is a
link at all.  So a bucket of two or more blocks never makes a value twice.  A
bucket of one block starts with the counter at the tag of its head, and its
first call of `FreeInterval` makes that very value again.

A value that is made once cannot be at the head again after its block was
popped: what gets to the list was there before or was about to be put there,
and what a call is about to put there it has made itself.
-/

variable {elementSize size t u o : Nat} {s s' : AtomicBucket} {central central' : List Nat}
variable {isBlock : Nat -> Prop} {value : TaggedIndex} {move : Move}

namespace AtomicBucket

/-- The values that `Create` makes: the head, and the links of all blocks but the last. -/
def created (elementSize size : Nat) (s : AtomicBucket) : List TaggedIndex :=
  s.head :: (List.range (size / elementSize - 1)).map (fun k => s.link (k * elementSize))

/-- The value that a step of `FreeInterval` makes. -/
def drawn (s : AtomicBucket) : Move -> Option TaggedIndex
  | .proceed t =>
      match s.point t with
      | .freeInterval chain => some ⟨s.globalTag, UInt32.ofNat chain.pHead⟩
      | _ => none
  | _ => none

/-- The step is not the one by which a call of `FreeInterval` draws its tag. -/
def Undrawn (s : AtomicBucket) (move : Move) : Prop :=
  forall t, move = .proceed t -> (s.point t).isWaiting = false

theorem undrawn_iff : s.Undrawn move <-> s.drawn move = none := by
  cases move with
  | proceed t =>
      have isMove : s.Undrawn (.proceed t) <-> (s.point t).isWaiting = false := by
        constructor
        · exact fun undrawn => undrawn t rfl
        · rintro notWaiting u same
          injection same with same
          rwa [← same]
      rw [isMove]
      cases here : s.point t <;> simp [drawn, here, Point.isWaiting]
  | _ => exact ⟨fun _ => rfl, fun _ t same => by cases same⟩

theorem drawn_spec (shown : s.drawn move = some value) :
    ∃ t chain, move = .proceed t ∧ s.point t = .freeInterval chain ∧
      value = ⟨s.globalTag, UInt32.ofNat chain.pHead⟩ := by
  cases move with
  | proceed t =>
      cases here : s.point t with
      | freeInterval chain =>
          simp only [drawn, here, Option.some.injEq] at shown
          exact ⟨t, chain, rfl, here, shown.symm⟩
      | _ =>
          simp only [drawn, here] at shown
          cases shown
  | _ => cases shown

/-- The counter moves when a tag is drawn. -/
theorem globalTag_of_drawn (shown : s.drawn move = some value) :
    (s.step move).globalTag = s.globalTag + 1 := by
  rcases drawn_spec shown with ⟨t, chain, rfl, here, -⟩
  simp only [step, proceed, here]
  rfl

theorem Proceeds.globalTag (moved : Proceeds s central t s' central')
    (notWaiting : (s.point t).isWaiting = false) : s'.globalTag = s.globalTag := by
  cases moved with
  | draw chain here =>
      rw [here] at notWaiting
      cases notWaiting
  | _ => rfl

theorem globalTag_of_undrawn (silent : s.drawn move = none) :
    (s.step move).globalTag = s.globalTag := by
  have undrawn := undrawn_iff.mpr silent
  cases move with
  | proceed t => exact (s.proceeds [] t).globalTag (undrawn t rfl)
  | allocFromCache t =>
      simp only [step]
      split <;> rfl
  | returnL1CacheToMaster t count =>
      simp only [step]
      split <;> rfl
  | _ => rfl

/-! ## Where a value can be -/

/-- Calls work on single blocks as long as no thread has a cache. -/
theorem Proceeds.single (moved : Proceeds s central t s' central')
    (single : forall u, (s.point u).Single) : forall u, (s'.point u).Single := by
  intro u
  by_cases other : u ≠ t
  · rw [moved.point_of_ne other]
    exact single u
  · have own : u = t := not_not.mp other
    subst own
    have here := single u
    cases moved with
    | idle => exact here
    | linked chain localTag previous isPoint =>
        rw [isPoint] at here
        exact absurd here id
    | link chain localTag previous o todo isPoint =>
        rw [isPoint] at here
        exact absurd here id
    | draw chain isPoint =>
        rw [isPoint] at here
        rw [goto_point]
        exact here
    | load chain nodeValue isPoint =>
        rw [isPoint] at here
        rw [goto_point]
        exact here
    | store chain nodeValue headValue isPoint =>
        rw [isPoint] at here
        rw [goto_point]
        exact here
    | retry chain nodeValue headValue isPoint =>
        rw [isPoint] at here
        rw [goto_point]
        exact here
    | _ =>
        rw [goto_point]
        trivial

theorem step_single (single : forall u, (s.point u).Single) (uncached : move.Uncached) :
    forall u, ((s.step move).point u).Single := by
  have gone : forall (t : Nat) (point : Point), point.Single ->
      forall u, (Function.update s.point t point u).Single := by
    intro t point isSingle u
    by_cases own : u = t
    · rw [own, Function.update_self]
      exact isSingle
    · rw [Function.update_of_ne own]
      exact single u
  cases move with
  | alloc t => exact gone t _ trivial
  | free t o => exact gone t _ rfl
  | releaseToCache t o => exact absurd uncached id
  | allocFromCache t => exact absurd uncached id
  | returnL1CacheToMaster t count => exact absurd uncached id
  | proceed t => exact (s.proceeds [] t).single single
  | write o value => exact single

/-- On the list, or about to be put there. -/
def Present (s : AtomicBucket) (central : List Nat) (value : TaggedIndex) : Prop :=
  value ∈ s.values central ∨ ∃ t, (s.point t).pending = some value

/-- What a step is about to put on the list was so before, or is made by the step. -/
theorem Proceeds.pending (moved : Proceeds s central t s' central')
    (waits : (s'.point u).pending = some value) :
    (s.point u).pending = some value ∨ s.drawn (.proceed t) = some value := by
  by_cases other : u ≠ t
  · rw [moved.point_of_ne other] at waits
    exact Or.inl waits
  · have own : u = t := not_not.mp other
    subst own
    cases moved with
    | idle => exact Or.inl waits
    | draw chain here =>
        rw [goto_point] at waits
        simp only [drawn, here]
        exact Or.inr waits
    | load chain nodeValue here =>
        rw [goto_point] at waits
        rw [here]
        exact Or.inl waits
    | store chain nodeValue headValue here =>
        rw [goto_point] at waits
        rw [here]
        exact Or.inl waits
    | retry chain nodeValue headValue here =>
        rw [goto_point] at waits
        rw [here]
        exact Or.inl waits
    | _ =>
        rw [goto_point] at waits
        cases waits

theorem step_pending (uncached : move.Uncached) (waits : ((s.step move).point u).pending = some value) :
    (s.point u).pending = some value ∨ s.drawn move = some value := by
  have begun : forall (t : Nat) (point : Point), point.pending = none ->
      (Function.update s.point t point u).pending = some value ->
      (s.point u).pending = some value := by
    intro t point none waits
    by_cases own : u = t
    · rw [own, Function.update_self, none] at waits
      cases waits
    · rwa [Function.update_of_ne own] at waits
  cases move with
  | alloc t => exact Or.inl (begun t _ rfl waits)
  | free t o => exact Or.inl (begun t _ rfl waits)
  | releaseToCache t o => exact absurd uncached id
  | allocFromCache t => exact absurd uncached id
  | returnL1CacheToMaster t count => exact absurd uncached id
  | proceed t => exact (s.proceeds [] t).pending waits
  | write o value => exact Or.inl waits

namespace Owned

theorem mem_values_proceed (owned : Owned isBlock s central) (single : (s.point t).Single)
    (moved : Proceeds s central t s' central') (listed : value ∈ s'.values central') :
    s.Present central value := by
  cases moved with
  | pop headValue nextValue here same => exact Or.inl (owned.mem_values_pop here same listed)
  | push chain nodeValue headValue here same =>
      rw [here] at single
      rcases owned.mem_values_push here same single listed with isNode | old
      · refine Or.inr ⟨t, ?_⟩
        rw [here, isNode]
        rfl
      · exact Or.inl old
  | link chain localTag previous o todo here =>
      rw [here] at single
      exact absurd single id
  | store chain nodeValue headValue here =>
      have own : chain.pTail ∈ s.keeps central (.thread t) := by
        rw [kept_of_point s central here]
        exact chain.pTail_mem
      have same := owned.relink_values headValue own (fun equal => by cases equal)
      exact Or.inl (same ▸ listed)
  | _ => exact Or.inl listed

/-- What gets to the list was present before, or is made by the step. -/
theorem present_of_step (owned : Owned isBlock s central) (single : forall u, (s.point u).Single)
    (allowed : s.Allowed move) (uncached : move.Uncached)
    (present : (s.step move).Present (s.after central move) value) :
    s.Present central value ∨ s.drawn move = some value := by
  rcases present with listed | ⟨u, waits⟩
  · left
    cases move with
    | alloc t => exact Or.inl listed
    | free t o => exact Or.inl listed
    | releaseToCache t o => exact absurd uncached id
    | allocFromCache t => exact absurd uncached id
    | returnL1CacheToMaster t count => exact absurd uncached id
    | proceed t => exact owned.mem_values_proceed (single t) (s.proceeds central t) listed
    | write o link =>
        have held : o ∈ s.keeps central .client := allowed
        have same := owned.relink_values link held (fun equal => by cases equal)
        exact Or.inl (same ▸ listed)
  · rcases step_pending uncached waits with old | new
    · exact Or.inl (Or.inr ⟨u, old⟩)
    · exact Or.inr new

end Owned

/-- Nothing that is about to be put on the list is there already, and no call
of `Alloc` would be misled by it. -/
structure Apart (elementSize size : Nat) (s : AtomicBucket) : Prop where
  owned : Owned (IsBlock elementSize size) s (s.stack elementSize size)
  single : forall t, (s.point t).Single
  unremembered : forall move, s.Unremembered move
  apart : forall t value, (s.point t).pending = some value ->
    value ∉ s.values (s.stack elementSize size)

theorem Owned.stack_step (fits : Fits elementSize size)
    (owned : Owned (IsBlock elementSize size) s central) (allowed : s.Allowed move)
    (unremembered : s.Unremembered move) :
    (s.step move).stack elementSize size = s.after central move :=
  (owned.step (fun _ block => IsBlock.small fits block) allowed unremembered).stack_eq

namespace Apart

/-- A value whose block is popped is neither on the list nor about to be put there. -/
theorem popped (apart : Apart elementSize size s) (shown : s.event move = some (.pop t o)) :
    ¬ (s.step move).Present (s.after (s.stack elementSize size) move) s.head := by
  rcases pop_spec shown with ⟨headValue, nextValue, rfl, here, same, -⟩
  rcases apart.owned.pop here same with ⟨list, -, owned⟩
  have isStep : s.step (.proceed t) = { s with
      head := nextValue
      held := headValue.offset.toNat :: s.held }.goto t .idle := by
    simp only [step, proceed, here, if_pos same]
  have isAfter : s.after (s.stack elementSize size) (.proceed t) =
      (s.stack elementSize size).tail := by
    simp only [after, here, if_pos same]
  rw [isStep, isAfter]
  rintro (listed | ⟨u, waits⟩)
  · have nodup := apart.owned.custody.nodup .central
    change (s.stack elementSize size).Nodup at nodup
    rw [list] at nodup
    have inside := owned.linked.target_mem listed
    rw [same] at inside
    exact (List.nodup_cons.mp nodup).1 inside
  · have running : s.head ≠ TaggedIndex.invalid := by
      rw [same]
      exact apart.owned.fine_of_point here
    by_cases own : u = t
    · rw [own, goto_point] at waits
      cases waits
    · rw [goto_point_of_ne own] at waits
      exact apart.apart u s.head waits (apart.owned.head_mem running)

end Apart

/-! ## Before the first tag is drawn -/

/-- No call is about to put anything on the list. -/
structure Quiet (elementSize size : Nat) (s : AtomicBucket) : Prop where
  owned : Owned (IsBlock elementSize size) s (s.stack elementSize size)
  single : forall t, (s.point t).Single
  quiet : forall t, (s.point t).pending = none

namespace Quiet

theorem unremembered (quiet : Quiet elementSize size s) (move : Move) : s.Unremembered move := by
  intro t chain nodeValue headValue _ here
  have none := quiet.quiet t
  rw [here] at none
  cases none

theorem apart (quiet : Quiet elementSize size s) : Apart elementSize size s where
  owned := quiet.owned
  single := quiet.single
  unremembered := quiet.unremembered
  apart := by
    intro t value waits
    rw [quiet.quiet t] at waits
    cases waits

theorem step (fits : Fits elementSize size) (quiet : Quiet elementSize size s)
    (allowed : s.Allowed move) (uncached : move.Uncached) (undrawn : s.Undrawn move) :
    Quiet elementSize size (s.step move) where
  owned := by
    rw [quiet.owned.stack_step fits allowed (quiet.unremembered move)]
    exact quiet.owned.step (fun _ block => IsBlock.small fits block) allowed
      (quiet.unremembered move)
  single := step_single quiet.single uncached
  quiet := by
    intro t
    cases waits : ((s.step move).point t).pending with
    | none => rfl
    | some value =>
        rcases step_pending uncached waits with old | new
        · rw [quiet.quiet t] at old
          cases old
        · rw [undrawn_iff.mp undrawn] at new
          cases new

end Quiet

theorem Initial.quiet (initial : Initial elementSize size s) (fits : Fits elementSize size) :
    Quiet elementSize size s where
  owned := by
    have owned := initial.owned fits
    rw [owned.stack_eq]
    exact owned
  single := by
    intro t
    rw [initial.point t]
    trivial
  quiet := by
    intro t
    rw [initial.point t]
    rfl

/-! ## What Create makes -/

namespace Initial

theorem stack_eq (initial : Initial elementSize size s) (fits : Fits elementSize size) :
    s.stack elementSize size = createdList elementSize size := (initial.owned fits).stack_eq

/-- Everything that is on the list at the start was made by `Create`. -/
theorem present (initial : Initial elementSize size s) (fits : Fits elementSize size)
    (present : s.Present (s.stack elementSize size) value) :
    value ∈ s.created elementSize size := by
  rw [initial.stack_eq fits] at present
  rcases present with listed | ⟨t, waits⟩
  · have running := (initial.owned fits).linked.ne_stop_of_mem listed
    rcases LinkKind.mem_values listed with isHead | ⟨o, member, isLink⟩
    · rw [isHead]
      exact List.mem_cons_self
    · rcases mem_createdList.mp member with ⟨k, inside, rfl⟩
      refine List.mem_cons_of_mem _ (List.mem_map.mpr ⟨k, List.mem_range.mpr ?_, isLink.symm⟩)
      by_contra last
      rw [isLink, initial.link k inside, createdLink, if_neg (by omega)] at running
      exact running rfl
  · rw [initial.point t] at waits
    cases waits

/-- The links that `Create` makes count up. -/
theorem link_eq (initial : Initial elementSize size s) {k : Nat}
    (inside : k < size / elementSize - 1) :
    s.link (k * elementSize) = ⟨UInt32.ofNat k, UInt32.ofNat ((k + 1) * elementSize)⟩ := by
  rw [initial.link k (by omega), createdLink, if_pos (by omega), UInt32.zero_add]
  rfl

/-- With two blocks the counter has left all tags behind, and no two values agree. -/
theorem created_fresh (initial : Initial elementSize size s) (cut : Cut elementSize size) :
    (s.created elementSize size).Nodup ∧
      forall value, value ∈ s.created elementSize size ->
        value.tag.toNat < s.globalTag.toNat := by
  have two := cut.count_ge
  have few := cut.fits.count_lt
  have tagOf : forall k, k < size / elementSize - 1 ->
      (s.link (k * elementSize)).tag.toNat = k := by
    intro k inside
    rw [initial.link_eq inside]
    exact UInt32.toNat_ofNat_of_lt' (by omega : k < 2 ^ 32)
  constructor
  · refine List.nodup_cons.mpr ⟨?_, ?_⟩
    · intro member
      rcases List.mem_map.mp member with ⟨k, listed, same⟩
      have inside := List.mem_range.mp listed
      have small := IsBlock.small cut.fits (⟨k + 1, by omega, rfl⟩ :
        IsBlock elementSize size ((k + 1) * elementSize))
      have offset : ((k + 1) * elementSize) = 0 := by
        have offsets := congrArg (fun value : TaggedIndex => value.offset.toNat) same
        rw [initial.link_eq inside, initial.head] at offsets
        change (UInt32.ofNat ((k + 1) * elementSize)).toNat = 0 at offsets
        rwa [UInt32.toNat_ofNat_of_lt' (Nat.lt_of_succ_lt small)] at offsets
      exact Nat.ne_of_gt (Nat.mul_pos (Nat.succ_pos k) cut.fits.positive) offset
    · refine List.Nodup.map_on ?_ List.nodup_range
      intro j inside k inside' same
      have tags := congrArg (fun value : TaggedIndex => value.tag.toNat) same
      change (s.link (j * elementSize)).tag.toNat = (s.link (k * elementSize)).tag.toNat at tags
      rwa [tagOf j (List.mem_range.mp inside), tagOf k (List.mem_range.mp inside')] at tags
  · intro value member
    rw [initial.counter cut.fits]
    rcases List.mem_cons.mp member with isHead | isLink
    · rw [isHead, initial.head]
      change 0 < _
      omega
    · rcases List.mem_map.mp isLink with ⟨k, listed, rfl⟩
      have inside := List.mem_range.mp listed
      rw [tagOf k inside]
      exact inside

end Initial

end AtomicBucket

/-! ## Runs -/

namespace CountedBucket

open AtomicBucket

variable {first : CountedBucket} {moves : List Move}

/-- The values that a run makes after `Create`. -/
def drawnBy (elementSize size : Nat) (first : CountedBucket) (moves : List Move) :
    List TaggedIndex :=
  (system elementSize size).trace (fun s move => s.bucket.drawn move) first moves

/-- All the values made up to the end of a run. -/
def introduced (elementSize size : Nat) (first : CountedBucket) (moves : List Move) :
    List TaggedIndex :=
  first.bucket.created elementSize size ++ drawnBy elementSize size first moves

/-- No value is made twice, none is `Invalid`, and a value whose block has been
popped is never the head again. -/
structure MadeOnce (elementSize size : Nat) (first : CountedBucket) (moves : List Move) : Prop where
  distinct : (introduced elementSize size first moves).Nodup
  valid : forall value, value ∈ introduced elementSize size first moves ->
    value ≠ TaggedIndex.invalid
  gone : forall before move later rest t o, moves = before ++ move :: (later ++ rest) ->
    ((system elementSize size).run first before).bucket.event move = some (.pop t o) ->
    ((system elementSize size).run first (before ++ move :: later)).bucket.head ≠
      ((system elementSize size).run first before).bucket.head

/-- No step of the run is the one by which a call of `FreeInterval` draws its tag. -/
def NoneDrawn (elementSize size : Nat) (first : CountedBucket) (moves : List Move) : Prop :=
  ((system elementSize size).restrict (fun s move => s.bucket.Undrawn move)).Permitted first moves

/-- Every state on the way keeps the list apart from what is to come. -/
def ApartAlong (elementSize size : Nat) (first : CountedBucket) (moves : List Move) : Prop :=
  forall before rest, moves = before ++ rest ->
    Apart elementSize size ((system elementSize size).run first before).bucket

namespace ApartAlong

theorem left {earlier later : List Move}
    (along : ApartAlong elementSize size first (earlier ++ later)) :
    ApartAlong elementSize size first earlier := by
  intro before rest parts
  apply along before (rest ++ later)
  rw [parts, List.append_assoc]

theorem right (earlier : List Move) {later : List Move}
    (along : ApartAlong elementSize size first (earlier ++ later)) :
    ApartAlong elementSize size ((system elementSize size).run first earlier) later := by
  intro before rest parts
  have here := along (earlier ++ before) rest (by rw [parts, List.append_assoc])
  rwa [Transition.run_append] at here

theorem head (along : ApartAlong elementSize size first moves) :
    Apart elementSize size first.bucket := along [] moves rfl

theorem last (along : ApartAlong elementSize size first moves) :
    Apart elementSize size ((system elementSize size).run first moves).bucket :=
  along moves [] (List.append_nil moves).symm

end ApartAlong

/-- What is present at the end was present at the beginning or made on the way. -/
theorem present_of_run (fits : Fits elementSize size) : forall {first : CountedBucket},
    (system elementSize size).Permitted first moves -> ApartAlong elementSize size first moves ->
    forall {value : TaggedIndex},
    ((system elementSize size).run first moves).bucket.Present
      (((system elementSize size).run first moves).bucket.stack elementSize size) value ->
    first.bucket.Present (first.bucket.stack elementSize size) value ∨
      value ∈ drawnBy elementSize size first moves := by
  induction moves with
  | nil => exact fun _ _ _ present => Or.inl present
  | cons move rest ih =>
      intro first permitted along value present
      rcases permitted with ⟨⟨allowed, uncached, few⟩, later⟩
      have apart := along.head
      have alongRest : ApartAlong elementSize size ((system elementSize size).next first move) rest :=
        along.right [move]
      rcases ih later alongRest present with early | made
      · have list := apart.owned.stack_step fits allowed (apart.unremembered move)
        change (first.bucket.step move).Present
          ((first.bucket.step move).stack elementSize size) value at early
        rw [list] at early
        rcases apart.owned.present_of_step apart.single allowed uncached early with old | new
        · exact Or.inl old
        · right
          rw [drawnBy, Transition.trace, new]
          exact List.mem_cons_self
      · exact Or.inr (List.mem_append_right _ made)

/-- The head at the end of a run was made in the run. -/
theorem head_introduced (fits : Fits elementSize size)
    (initial : Initial elementSize size first.bucket)
    (permitted : (system elementSize size).Permitted first moves)
    (along : ApartAlong elementSize size first moves)
    (running : ((system elementSize size).run first moves).bucket.head ≠ TaggedIndex.invalid) :
    ((system elementSize size).run first moves).bucket.head ∈
      introduced elementSize size first moves := by
  rcases present_of_run fits permitted along (Or.inl (along.last.owned.head_mem running)) with
    old | new
  · exact List.mem_append_left _ (initial.present fits old)
  · exact List.mem_append_right _ new

/-- A value that is at the head again after its block was popped was made again. -/
theorem made_again (fits : Fits elementSize size) {s : CountedBucket} {move : Move}
    (apart : Apart elementSize size s.bucket) (allowed : s.bucket.Allowed move)
    (shown : s.bucket.event move = some (.pop t o)) {later : List Move}
    (permitted : (system elementSize size).Permitted ((system elementSize size).next s move) later)
    (along : ApartAlong elementSize size ((system elementSize size).next s move) later)
    (again : ((system elementSize size).run ((system elementSize size).next s move)
      later).bucket.head = s.bucket.head) :
    s.bucket.head ∈ drawnBy elementSize size ((system elementSize size).next s move) later := by
  have running : s.bucket.head ≠ TaggedIndex.invalid := by
    rcases pop_spec shown with ⟨headValue, nextValue, -, here, same, -⟩
    rw [same]
    exact apart.owned.fine_of_point here
  have listed := along.last.owned.head_mem (again ▸ running)
  rw [again] at listed
  rcases present_of_run fits permitted along (Or.inl listed) with old | new
  · have list := apart.owned.stack_step fits allowed (apart.unremembered move)
    change (s.bucket.step move).Present ((s.bucket.step move).stack elementSize size) _ at old
    rw [list] at old
    exact absurd old (apart.popped shown)
  · exact new

/-- So it does not get there if all values are distinct. -/
theorem gone_of_distinct (fits : Fits elementSize size)
    (initial : Initial elementSize size first.bucket) {before later rest : List Move} {move : Move}
    (permitted : (system elementSize size).Permitted first (before ++ move :: (later ++ rest)))
    (along : ApartAlong elementSize size first (before ++ move :: (later ++ rest)))
    (distinct : (introduced elementSize size first (before ++ move :: (later ++ rest))).Nodup)
    (shown : ((system elementSize size).run first before).bucket.event move = some (.pop t o)) :
    ((system elementSize size).run first (before ++ move :: later)).bucket.head ≠
      ((system elementSize size).run first before).bucket.head := by
  rw [Transition.run_append]
  intro again
  rcases (Transition.permitted_append _ _ _ _).mp permitted with ⟨earlier, ⟨allowed, -⟩, others⟩
  have afterwards := ((Transition.permitted_append _ _ _ _).mp others).1
  have apart := (along.right before).head
  have alongLater : ApartAlong elementSize size ((system elementSize size).next
      ((system elementSize size).run first before) move) (later ++ rest) :=
    ApartAlong.right [move] (along.right before)
  have running : ((system elementSize size).run first before).bucket.head ≠
      TaggedIndex.invalid := by
    rcases pop_spec shown with ⟨headValue, nextValue, -, here, same, -⟩
    rw [same]
    exact apart.owned.fine_of_point here
  have made := head_introduced fits initial earlier along.left running
  have remade := made_again fits apart allowed shown afterwards alongLater.left again
  rw [introduced, drawnBy, Transition.trace_append, ← List.append_assoc] at distinct
  refine (List.nodup_append.mp distinct).2.2 _ made _ ?_ rfl
  rw [Transition.trace, Transition.trace_append]
  exact List.mem_append_right _ (List.mem_append_left _ remade)

/-- With two blocks every tag is drawn once. -/
theorem introduced_fresh (cut : Cut elementSize size) (start : (system elementSize size).start first)
    (permitted : (system elementSize size).Permitted first moves) :
    (introduced elementSize size first moves).Nodup ∧
      forall value, value ∈ introduced elementSize size first moves ->
        value.tag.toNat < ((system elementSize size).run first moves).bucket.globalTag.toNat := by
  induction moves using List.reverseRecOn with
  | nil =>
      rw [introduced, drawnBy, Transition.trace, List.append_nil]
      exact (Start.initial start.1 cut.fits).created_fresh cut
  | append_singleton moves move ih =>
      rcases (Transition.permitted_append _ _ _ _).mp permitted with ⟨earlier, -⟩
      rcases ih earlier with ⟨nodup, below⟩
      have reached : (system elementSize size).Reachable first := Transition.Reachable.start start
      rcases sound_of_reachable cut (reached.after earlier) with ⟨central, sound⟩
      obtain ⟨s, isState⟩ : ∃ s, s = (system elementSize size).run first moves := ⟨_, rfl⟩
      have last : (system elementSize size).run first (moves ++ [move]) =
          (system elementSize size).next s move := by
        rw [Transition.run_append, isState]
        rfl
      have parts : introduced elementSize size first (moves ++ [move]) =
          introduced elementSize size first moves ++ (s.bucket.drawn move).toList := by
        rw [introduced, drawnBy, Transition.trace_append, ← List.append_assoc, isState]
        simp only [Transition.trace, List.append_nil]
        rfl
      rw [last, parts]
      rw [← isState] at below sound
      change _ ∧ forall value : TaggedIndex, _ -> value.tag.toNat < (s.bucket.step move).globalTag.toNat
      cases shown : s.bucket.drawn move with
      | none =>
          rw [globalTag_of_undrawn shown, Option.toList, List.append_nil]
          exact ⟨nodup, below⟩
      | some value =>
          rcases drawn_spec shown with ⟨t, chain, -, here, isValue⟩
          have more := sound.counted.draws (t := t) (by rw [here]; rfl)
          have next : (s.bucket.globalTag + 1).toNat = s.bucket.globalTag.toNat + 1 := by
            rw [UInt32.toNat_add]
            exact Nat.mod_eq_of_lt (Nat.lt_of_le_of_lt more sound.bound)
          have tag : value.tag = s.bucket.globalTag := by rw [isValue]
          rw [globalTag_of_drawn shown, next]
          constructor
          · rw [Option.toList, ← List.concat_eq_append]
            refine List.Nodup.concat ?_ nodup
            intro member
            have less := below value member
            rw [tag] at less
            exact Nat.lt_irrefl _ less
          · intro other member
            rcases List.mem_append.mp member with old | new
            · exact Nat.lt_succ_of_lt (below other old)
            · rw [List.mem_singleton.mp new, tag]
              exact Nat.lt_succ_self _

/-- Nothing is drawn in such a run, and nobody is about to push. -/
theorem quiet_of_noneDrawn (fits : Fits elementSize size)
    (initial : Initial elementSize size first.bucket)
    (silent : NoneDrawn elementSize size first moves) :
    Quiet elementSize size ((system elementSize size).run first moves).bucket ∧
      drawnBy elementSize size first moves = [] ∧
      ((system elementSize size).run first moves).bucket.globalTag = first.bucket.globalTag := by
  induction moves using List.reverseRecOn with
  | nil => exact ⟨initial.quiet fits, rfl, rfl⟩
  | append_singleton moves move ih =>
      rcases (Transition.permitted_append _ _ _ _).mp silent with ⟨earlier, ⟨allowed, undrawn⟩, -⟩
      rcases ih earlier with ⟨quiet, none, counter⟩
      rw [Transition.run_restrict] at allowed undrawn
      have nothing := undrawn_iff.mp undrawn
      refine ⟨?_, ?_, ?_⟩
      · rw [Transition.run_append]
        exact quiet.step fits allowed.1 allowed.2.1 undrawn
      · rw [drawnBy] at none ⊢
        rw [Transition.trace_append, none]
        simp only [Transition.trace, nothing]
        rfl
      · rw [Transition.run_append]
        exact (globalTag_of_undrawn nothing).trans counter

theorem noneDrawn_of_drawnBy : forall {first : CountedBucket},
    (system elementSize size).Permitted first moves -> drawnBy elementSize size first moves = [] ->
    NoneDrawn elementSize size first moves := by
  induction moves with
  | nil => exact fun _ _ => trivial
  | cons move rest ih =>
      intro first permitted silent
      rw [drawnBy, Transition.trace, List.append_eq_nil_iff] at silent
      have nothing : first.bucket.drawn move = none := Option.toList_eq_nil_iff.mp silent.1
      exact ⟨⟨permitted.1, undrawn_iff.mpr nothing⟩, ih permitted.2 silent.2⟩

theorem NoneDrawn.left {earlier later : List Move}
    (silent : NoneDrawn elementSize size first (earlier ++ later)) :
    NoneDrawn elementSize size first earlier :=
  ((Transition.permitted_append _ _ _ _).mp silent).1

/-- The first value that a bucket of one block makes is the value of its first head. -/
theorem remade_of_oneBlock (fits : Fits elementSize size)
    (initial : Initial elementSize size first.bucket) (one : size / elementSize < 2)
    (permitted : (system elementSize size).Permitted first moves)
    (drawn : drawnBy elementSize size first moves ≠ []) :
    first.bucket.head ∈ drawnBy elementSize size first moves := by
  rcases Transition.trace_first drawn with ⟨before, move, later, value, parts, silent, shown⟩
  have earlier : (system elementSize size).Permitted first before := by
    rw [parts] at permitted
    exact ((Transition.permitted_append _ _ _ _).mp permitted).1
  have quiet := quiet_of_noneDrawn fits initial (noneDrawn_of_drawnBy earlier silent)
  rcases drawn_spec shown with ⟨t, chain, -, here, isValue⟩
  have block : IsBlock elementSize size chain.pHead := by
    refine quiet.1.owned.custody.supplied (.thread t) ?_
    rw [kept_of_point _ _ here]
    exact List.mem_cons_self
  have isFirst : chain.pHead = 0 := by
    rcases block with ⟨k, inside, isOffset⟩
    have zero : k = 0 := by omega
    rw [isOffset, zero, Nat.zero_mul]
  have counter : first.bucket.globalTag = 0 := by
    rw [initial.globalTag, Nat.sub_eq_zero_of_le (Nat.le_of_lt_succ one)]
    rfl
  have same : value = first.bucket.head := by
    rw [isValue, quiet.2.2, counter, isFirst, initial.head]
    rfl
  rw [drawnBy, parts, Transition.trace_append, Transition.trace, shown, same]
  exact List.mem_append_right _ List.mem_cons_self

/-! ## Exactly when -/

theorem Sound.apart {s : CountedBucket} (sound : Sound elementSize size s central) :
    Apart elementSize size s.bucket where
  owned := by
    rw [sound.owned.stack_eq]
    exact sound.owned
  single := sound.tagged.single
  unremembered := sound.tagged.unremembered
  apart := by
    intro t value waits listed
    rw [sound.owned.stack_eq] at listed
    exact absurd rfl (sound.tagged.fresh t value value waits (Or.inl listed))

theorem madeOnce_of_two (cut : Cut elementSize size) (start : (system elementSize size).start first)
    (permitted : (system elementSize size).Permitted first moves) :
    MadeOnce elementSize size first moves := by
  rcases introduced_fresh cut start permitted with ⟨distinct, below⟩
  refine ⟨distinct, ?_, ?_⟩
  · rintro value member rfl
    have less := below _ member
    have top := ((system elementSize size).run first moves).bucket.globalTag.toNat_lt
    have allBits : TaggedIndex.invalid.tag.toNat = 2 ^ 32 - 1 := rfl
    omega
  · intro before move later rest t o parts shown
    have along : ApartAlong elementSize size first moves := by
      intro earlier others parts'
      have permitted' := permitted
      rw [parts', Transition.permitted_append] at permitted'
      have reached : (system elementSize size).Reachable first := Transition.Reachable.start start
      rcases sound_of_reachable cut (reached.after permitted'.1) with ⟨central, sound⟩
      exact sound.apart
    rw [parts] at permitted along distinct
    exact gone_of_distinct cut.fits (Start.initial start.1 cut.fits) permitted along distinct shown

theorem madeOnce_of_noneDrawn (fits : Fits elementSize size)
    (start : (system elementSize size).start first) (one : size / elementSize < 2)
    (permitted : (system elementSize size).Permitted first moves)
    (silent : NoneDrawn elementSize size first moves) : MadeOnce elementSize size first moves := by
  have initial := Start.initial start.1 fits
  have only : introduced elementSize size first moves = [⟨0, 0⟩] := by
    have none : size / elementSize - 1 = 0 := Nat.sub_eq_zero_of_le (Nat.le_of_lt_succ one)
    rw [introduced, (quiet_of_noneDrawn fits initial silent).2.1, created, none, initial.head]
    rfl
  have distinct : (introduced elementSize size first moves).Nodup := by
    rw [only]
    exact List.nodup_singleton _
  refine ⟨distinct, ?_, ?_⟩
  · intro value member
    rw [only] at member
    rw [List.mem_singleton.mp member]
    decide
  · intro before move later rest t o parts shown
    have along : ApartAlong elementSize size first moves := by
      intro earlier others parts'
      rw [parts'] at silent
      exact (quiet_of_noneDrawn fits initial silent.left).1.apart
    rw [parts] at permitted along distinct
    exact gone_of_distinct fits initial permitted along distinct shown

/-- Every value is made once exactly if the bucket has at least two blocks or
no call of `FreeInterval` draws a tag. -/
theorem madeOnce_iff (fits : Fits elementSize size) (start : (system elementSize size).start first)
    (permitted : (system elementSize size).Permitted first moves) :
    MadeOnce elementSize size first moves <->
      2 ≤ size / elementSize ∨ NoneDrawn elementSize size first moves := by
  constructor
  · intro once
    by_contra neither
    rw [not_or, Nat.not_le] at neither
    have drawn : drawnBy elementSize size first moves ≠ [] :=
      fun silent => neither.2 (noneDrawn_of_drawnBy permitted silent)
    have remade := remade_of_oneBlock fits (Start.initial start.1 fits) neither.1 permitted drawn
    exact (List.nodup_append.mp once.distinct).2.2 _ List.mem_cons_self _ remade rfl
  · intro condition
    by_cases two : 2 ≤ size / elementSize
    · have cut : Cut elementSize size :=
        ⟨fits.element_min, (Nat.le_div_iff_mul_le fits.positive).mp two, fits.size_le⟩
      exact madeOnce_of_two cut start permitted
    · exact madeOnce_of_noneDrawn fits start (Nat.lt_of_not_le two) permitted
        (condition.resolve_left two)

/-- Two blocks and two threads, with a call of `FreeInterval` between two of `Alloc`. -/
theorem madeOnce_twoBlocks : MadeOnce 16 32 twoBlocks stalledRun := by
  have fits : Fits 16 32 := ⟨by decide, by decide, by decide⟩
  have start : (system 16 32).start twoBlocks := ⟨⟨_, 0, 0, rfl, rfl⟩, rfl⟩
  have permitted : (system 16 32).Permitted twoBlocks stalledRun := by decide +kernel
  exact (madeOnce_iff fits start permitted).mpr (Or.inl (by decide))

/-- Allocator 0 has one bucket of one block, of a page. -/
def oneBlock : CountedBucket where
  bucket := ofBucket (PoolBucket.create {
    mem := fun _ => 0
    allocs := fun _ => { Allocator.constructed with
      buckets := fun _ => ⟨⟨0, 0⟩, 8192, 12288, 0⟩ }
    tls := fun _ _ => TlsPoolBucket.zero
    heap := ⟨[], fun _ => 0, 0, []⟩ } 0 0 4096) 0 0
  freeIntervalCalls := 0

/-- The block is taken and given back. -/
def takeAndReturn : List Move :=
  [.alloc 0, .proceed 0, .proceed 0, .free 0 0, .proceed 0, .proceed 0, .proceed 0, .proceed 0]

/-- The value of the head before the block is popped is the head again. -/
theorem head_remade_oneBlock :
    Fits 4096 4096 ∧ (system 4096 4096).start oneBlock ∧ (system 4096 4096).Permitted oneBlock takeAndReturn ∧
      introduced 4096 4096 oneBlock takeAndReturn = [⟨0, 0⟩, ⟨0, 0⟩] ∧
      ((system 4096 4096).run oneBlock takeAndReturn).bucket.head = oneBlock.bucket.head ∧
      ¬ MadeOnce 4096 4096 oneBlock takeAndReturn := by
  have made : introduced 4096 4096 oneBlock takeAndReturn = [⟨0, 0⟩, ⟨0, 0⟩] := by decide +kernel
  refine ⟨⟨by decide, by decide, by decide⟩, ⟨⟨_, 0, 0, rfl, rfl⟩, rfl⟩, by decide +kernel, made,
    by decide +kernel, ?_⟩
  intro once
  have distinct := once.distinct
  rw [made] at distinct
  exact absurd distinct (by decide)

end CountedBucket

end SmMalloc
