import SmMalloc.Foundation.Transition

namespace Foundation

/-!
# A stack in two levels

A small stack stands in front of a larger one.  An item that is given goes to
the front if there is room, and to the back otherwise; when both are full, the
upper half of the back is given up to make room.  Items are taken from the
front as long as there are any, and then from the back.

The two levels together are no stack: an item that has found the front full is
taken only after the older ones in front of it.  With room in front they are
one, `path_recycled`.  What happens is determined by the requests alone, so
two runs with the same requests cannot be told apart, `path_determined`.
-/

/-- Both lists begin with the item on top. -/
@[ext]
structure TwoLevel (Item : Type*) where
  front : List Item
  back : List Item

/-- An item is given, or one is asked for. -/
inductive LevelRequest (Item : Type*)
  | give (item : Item)
  | take
  deriving DecidableEq

namespace TwoLevel

variable {Item : Type*} {roomFront roomBack : Nat} {s s' : TwoLevel Item}

/-- The items in the order in which they are taken. -/
def items (s : TwoLevel Item) : List Item := s.front ++ s.back

/-- The item that a request is answered with. -/
def answer (s : TwoLevel Item) : LevelRequest Item -> Option Item
  | .give _ => none
  | .take => s.items.head?

variable (roomFront roomBack) in
/-- What a request leaves. -/
def next (s : TwoLevel Item) : LevelRequest Item -> TwoLevel Item
  | .give item =>
      if s.front.length < roomFront then { s with front := item :: s.front }
      else if s.back.length < roomBack then { s with back := item :: s.back }
      else { s with back := item :: s.back.drop (s.back.length / 2) }
  | .take =>
      match s.front with
      | _ :: front => { s with front := front }
      | [] => { s with back := s.back.tail }

variable (roomFront roomBack) in
/-- A request together with its answer. -/
structure Step (s : TwoLevel Item) (call : LevelRequest Item × Option Item)
    (s' : TwoLevel Item) : Prop where
  answer : call.2 = s.answer call.1
  next : s' = s.next roomFront roomBack call.1

variable (roomFront roomBack) in
/-- What a list of requests leaves. -/
def serve (s : TwoLevel Item) (requests : List (LevelRequest Item)) : TwoLevel Item :=
  requests.foldl (next roomFront roomBack) s

variable (roomFront roomBack) in
/-- The requests of a list with their answers. -/
def calls (s : TwoLevel Item) :
    List (LevelRequest Item) -> List (LevelRequest Item × Option Item)
  | [] => []
  | request :: requests =>
      (request, s.answer request) :: calls (s.next roomFront roomBack request) requests

theorem calls_append (earlier later : List (LevelRequest Item)) : forall s : TwoLevel Item,
    s.calls roomFront roomBack (earlier ++ later) = s.calls roomFront roomBack earlier ++
      (s.serve roomFront roomBack earlier).calls roomFront roomBack later := by
  induction earlier with
  | nil => exact fun _ => rfl
  | cons request earlier ih =>
      intro s
      exact congrArg _ (ih _)

/-- The requests of a path determine the rest. -/
theorem path_determined {calls : List (LevelRequest Item × Option Item)}
    (path : Transition.Path (Step roomFront roomBack) s calls s') :
    calls = s.calls roomFront roomBack (calls.map Prod.fst) ∧
      s' = s.serve roomFront roomBack (calls.map Prod.fst) := by
  induction path with
  | done s => exact ⟨rfl, rfl⟩
  | cons step _ ih =>
      rw [step.next] at ih
      refine ⟨congrArg₂ _ ?_ ih.1, ih.2⟩
      rw [← step.answer]

/-! ## With room in front -/

theorem next_give (item : Item) (room : s.front.length < roomFront) :
    s.next roomFront roomBack (.give item) = { s with front := item :: s.front } := if_pos room

theorem serve_give (given : List Item) : forall {s : TwoLevel Item},
    s.front.length + given.length ≤ roomFront ->
    s.serve roomFront roomBack (given.map .give) = { s with front := given.reverse ++ s.front } := by
  induction given with
  | nil => exact fun _ => rfl
  | cons item given ih =>
      intro s room
      rw [List.length_cons] at room
      have step : s.next roomFront roomBack (.give item) = { s with front := item :: s.front } :=
        next_give item (by omega)
      change (s.next roomFront roomBack (.give item)).serve roomFront roomBack _ = _
      rw [step, ih (by rw [List.length_cons]; omega), List.reverse_cons, List.append_assoc]
      rfl

theorem calls_give (given : List Item) : forall s : TwoLevel Item,
    s.calls roomFront roomBack (given.map .give) = given.map (fun item => (.give item, none)) := by
  induction given with
  | nil => exact fun _ => rfl
  | cons item given ih =>
      intro s
      exact congrArg _ (ih _)

theorem serve_take (taken : List Item) : forall {front back : List Item},
    (TwoLevel.mk (taken ++ front) back).serve roomFront roomBack
      (List.replicate taken.length .take) = ⟨front, back⟩ := by
  induction taken with
  | nil => exact rfl
  | cons item taken ih => exact ih

theorem calls_take (taken : List Item) : forall {front back : List Item},
    (TwoLevel.mk (taken ++ front) back).calls roomFront roomBack
      (List.replicate taken.length .take) = taken.map (fun item => (.take, some item)) := by
  induction taken with
  | nil => exact rfl
  | cons item taken ih => exact congrArg _ ih

/-- Items that find room in front come back in the opposite order. -/
theorem path_recycled {calls : List (LevelRequest Item × Option Item)} {given : List Item}
    (path : Transition.Path (Step roomFront roomBack) s calls s')
    (room : s.front.length + given.length ≤ roomFront)
    (requests : calls.map Prod.fst = given.map .give ++ List.replicate given.length .take) :
    calls = given.map (fun item => (.give item, none)) ++
        given.reverse.map (fun item => (.take, some item)) ∧ s' = s := by
  rcases path_determined path with ⟨answers, last⟩
  rw [requests, ← List.length_reverse] at answers last
  constructor
  · rw [answers, calls_append, calls_give, serve_give given room, calls_take]
  · rw [last, serve, List.foldl_append]
    change ((s.serve roomFront roomBack _).serve roomFront roomBack _) = s
    rw [serve_give given room, serve_take]

end TwoLevel

end Foundation
