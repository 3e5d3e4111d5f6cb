import Mathlib.Data.List.Basic
import Mathlib.Logic.Function.Basic
import SmMalloc.Foundation.Transition

namespace Foundation

/-!
# What the clients of a memory manager see

To its clients a memory manager is a store of blocks.  Each block has an
address and a list of contents that nobody else can change; how the manager
finds room for blocks, and where it keeps its own data, does not show.

`StoreStep` is the meaning of a call, with all the freedom that a manager has:
which address it answers, how much more room it gives than was asked for, and
what a new block contains.  It may refuse a request, and it may by accident give
back a block that its client still wants to be moved; but for these it needs an
excuse, and what excuses it depends on the situation that the call is made in.

`StoreStep.separate` says that blocks never overlap, and `StoreStep.frame` that
a call touches only the block that it names.  Both are lifted to paths.
-/

variable {Content : Type*}

/-- The contents of the blocks, by address. -/
abbrev BlockStore (Content : Type*) := Nat -> Option (List Content)

/-- What a call has been asked for and what it has answered. -/
inductive StoreCall (Content : Type*)
  | allocated (size alignment p : Nat)
  | refused (size alignment : Nat)
  | released (p : Nat)
  | kept (p size : Nat)
  | moved (p size alignment q : Nat)
  | written (p k : Nat) (content : Content)
  | lost (t p size alignment : Nat)
  deriving DecidableEq

namespace StoreCall

/-- The blocks that a call is about. -/
def names : StoreCall Content -> List Nat
  | .allocated _ _ p => [p]
  | .refused _ _ => []
  | .released p => [p]
  | .kept _ _ => []
  | .moved p _ _ q => [p, q]
  | .written p _ _ => [p]
  | .lost _ p _ _ => [p]

end StoreCall

namespace BlockStore

/-- Nothing is allocated. -/
def empty : BlockStore Content := fun _ => none

/-- The block at `p` has these contents. -/
def put (store : BlockStore Content) (p : Nat) (contents : List Content) : BlockStore Content :=
  Function.update store p (some contents)

def drop (store : BlockStore Content) (p : Nat) : BlockStore Content :=
  Function.update store p none

/-- A block of `size` at `p` overlaps none of the store. -/
def Room (store : BlockStore Content) (p size : Nat) : Prop :=
  forall q contents, store q = some contents -> p + size ≤ q ∨ q + contents.length ≤ p

/-- No two blocks overlap. -/
def Separate (store : BlockStore Content) : Prop :=
  forall p contents, store p = some contents -> (store.drop p).Room p contents.length

variable {store : BlockStore Content} {p q size : Nat} {contents : List Content}

@[simp] theorem put_same : store.put p contents p = some contents := Function.update_self _ _ _

theorem put_of_ne (different : q ≠ p) : store.put p contents q = store q :=
  Function.update_of_ne different _ _

@[simp] theorem drop_same : store.drop p p = none := Function.update_self _ _ _

theorem drop_of_ne (different : q ≠ p) : store.drop p q = store q :=
  Function.update_of_ne different _ _

theorem drop_put : (store.put p contents).drop p = store.drop p := Function.update_idem _ _ _

theorem drop_of_none (nothing : store p = none) : store.drop p = store := by
  funext q
  by_cases same : q = p
  · subst same
    rw [drop_same, nothing]
  · exact drop_of_ne same

theorem separate_empty : (empty : BlockStore Content).Separate := by
  intro p contents impossible
  cases impossible

/-- Less is left to overlap. -/
theorem Room.drop (room : store.Room p size) (q : Nat) : (store.drop q).Room p size := by
  intro r contents found
  by_cases same : r = q
  · subst same
    rw [drop_same] at found
    cases found
  · rw [drop_of_ne same] at found
    exact room r contents found

theorem Separate.drop (separate : store.Separate) (q : Nat) : (store.drop q).Separate := by
  intro p contents found
  by_cases same : p = q
  · subst same
    rw [drop_same] at found
    cases found
  · rw [drop_of_ne same] at found
    intro r others other
    by_cases isDropped : r = q
    · subst isDropped
      rw [drop_of_ne (fun equal => same equal.symm), drop_same] at other
      cases other
    · by_cases own : r = p
      · subst own
        rw [drop_same] at other
        cases other
      · rw [drop_of_ne own, drop_of_ne isDropped] at other
        exact separate p contents found r others ((drop_of_ne own).trans other)

/-- A block that has room may be put where none is. -/
theorem Separate.put (separate : store.Separate) (room : (store.drop p).Room p contents.length) :
    (store.put p contents).Separate := by
  intro q found isFound r others other
  by_cases own : r = q
  · subst own
    rw [drop_same] at other
    cases other
  rw [drop_of_ne own] at other
  by_cases first : q = p
  · subst first
    rw [put_same] at isFound
    rw [put_of_ne own] at other
    injection isFound with same
    rw [← same]
    exact room r others ((drop_of_ne own).trans other)
  · rw [put_of_ne first] at isFound
    by_cases second : r = p
    · subst second
      rw [put_same] at other
      injection other with same
      rw [← same]
      exact (room q found ((drop_of_ne first).trans isFound)).symm
    · rw [put_of_ne second] at other
      exact separate q found isFound r others ((drop_of_ne own).trans other)

end BlockStore

open BlockStore

variable {Situation : Type*}

/-- What a call does to the store. -/
inductive StoreStep (excuses : Situation -> StoreCall Content -> Prop) :
    BlockStore Content -> Situation × StoreCall Content -> BlockStore Content -> Prop
  | allocated {situation : Situation} {store : BlockStore Content} {size alignment p : Nat}
      {contents : List Content} : store p = none -> size ≤ contents.length -> alignment ∣ p ->
      store.Room p contents.length ->
      StoreStep excuses store (situation, .allocated size alignment p) (store.put p contents)
  | refused {situation : Situation} {store : BlockStore Content} {size alignment : Nat} :
      excuses situation (.refused size alignment) ->
      StoreStep excuses store (situation, .refused size alignment) store
  | released {situation : Situation} {store : BlockStore Content} {p : Nat}
      {contents : List Content} : store p = some contents ->
      StoreStep excuses store (situation, .released p) (store.drop p)
  | kept {situation : Situation} {store : BlockStore Content} {p size : Nat}
      {contents : List Content} : store p = some contents -> size ≤ contents.length ->
      StoreStep excuses store (situation, .kept p size) store
  | moved {situation : Situation} {store : BlockStore Content} {p size alignment q : Nat}
      {old new : List Content} : store p = some old -> store q = none -> size ≤ new.length ->
      alignment ∣ q -> (store.drop p).Room q new.length ->
      new.take (min old.length size) = old.take (min old.length size) ->
      StoreStep excuses store (situation, .moved p size alignment q) ((store.drop p).put q new)
  | written {situation : Situation} {store : BlockStore Content} {p k : Nat} {content : Content}
      {contents : List Content} : store p = some contents -> k < contents.length ->
      StoreStep excuses store (situation, .written p k content)
        (store.put p (contents.set k content))
  | lost {situation : Situation} {store : BlockStore Content} {t p size alignment : Nat}
      {contents : List Content} : store p = some contents ->
      excuses situation (.lost t p size alignment) ->
      StoreStep excuses store (situation, .lost t p size alignment) (store.drop p)

namespace StoreStep

variable {excuses : Situation -> StoreCall Content -> Prop}
variable {store store' : BlockStore Content} {call : Situation × StoreCall Content}
variable {calls : List (Situation × StoreCall Content)}

/-- No call makes blocks overlap. -/
theorem separate (step : StoreStep excuses store call store') (before : store.Separate) :
    store'.Separate := by
  cases step with
  | allocated fresh large aligned room => exact before.put (room.drop _)
  | refused => exact before
  | released found => exact before.drop _
  | kept found fits => exact before
  | moved found fresh large aligned room same => exact (before.drop _).put (room.drop _)
  | written found inside =>
      apply before.put
      rw [List.length_set]
      exact before _ _ found
  | lost found => exact before.drop _

/-- A call leaves the blocks alone that it does not name. -/
theorem frame (step : StoreStep excuses store call store') {p : Nat}
    (unnamed : p ∉ call.2.names) : store' p = store p := by
  cases step with
  | allocated => exact put_of_ne (List.ne_of_not_mem_cons unnamed)
  | refused => rfl
  | released => exact drop_of_ne (List.ne_of_not_mem_cons unnamed)
  | kept => rfl
  | moved =>
      have notOld := List.ne_of_not_mem_cons unnamed
      have notNew := List.ne_of_not_mem_cons (List.not_mem_of_not_mem_cons unnamed)
      rw [put_of_ne notNew, drop_of_ne notOld]
  | written => exact put_of_ne (List.ne_of_not_mem_cons unnamed)
  | lost => exact drop_of_ne (List.ne_of_not_mem_cons unnamed)

/-- Blocks never overlap. -/
theorem path_separate (path : Transition.Path (StoreStep excuses) store calls store')
    (before : store.Separate) : store'.Separate := by
  induction path with
  | done => exact before
  | cons step _ ih => exact ih (step.separate before)

/-- A block that no call names keeps its contents. -/
theorem path_frame (path : Transition.Path (StoreStep excuses) store calls store') {p : Nat}
    (unnamed : forall call, call ∈ calls -> p ∉ call.2.names) : store' p = store p := by
  induction path with
  | done => rfl
  | cons step _ ih =>
      rw [ih (fun call member => unnamed call (List.mem_cons_of_mem _ member))]
      exact step.frame (unnamed _ List.mem_cons_self)

end StoreStep

end Foundation
