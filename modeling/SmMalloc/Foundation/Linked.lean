import Mathlib.Data.List.Nodup

namespace Foundation

/-!
# Intrusive singly linked lists

A link value either is the distinguished `stop` or names a node; the node
holds the next link value.  `Linked` says that following the links from a
value visits exactly a given list of nodes and then stops.  Nothing is said
about where nodes live: a heap, a byte memory or a plain function all give a
`next` map.

The list visited is determined by the value (`Linked.unique`) and can be computed from it
(`Linked.follow`), it depends only
on the links of the nodes it visits (`Linked.congr`), and a segment whose nodes
are already threaded together can be put in front of it (`Linked.attach`).
-/

/-- How link values of type `Link` name nodes of type `Node`. -/
structure LinkKind (Link Node : Type*) where
  stop : Link
  target : Link -> Node

variable {Link Node : Type*}

namespace LinkKind

variable (kind : LinkKind Link Node)

/-- Following `next` from `value` visits exactly `nodes`, then stops. -/
def Linked (next : Node -> Link) : Link -> List Node -> Prop
  | value, [] => value = kind.stop
  | value, node :: rest =>
      value ≠ kind.stop ∧ kind.target value = node ∧ Linked next (next node) rest

/-- The link of every node names the node after it; the last link is `final`. -/
def Threaded (next : Node -> Link) : List Node -> Link -> Prop
  | [], _ => True
  | [node], final => next node = final
  | node :: after :: rest, final =>
      next node ≠ kind.stop ∧ kind.target (next node) = after ∧
        Threaded next (after :: rest) final

/-- The link values met on the way, before the final `stop`. -/
def values (next : Node -> Link) : Link -> List Node -> List Link
  | _, [] => []
  | value, node :: rest => value :: values next (next node) rest

variable {kind} {next next' : Node -> Link} {value final : Link} {nodes rest : List Node}

/-! ## The list visited -/

theorem Linked.unique (linked : kind.Linked next value nodes) : forall {others : List Node},
    kind.Linked next value others -> others = nodes := by
  induction nodes generalizing value with
  | nil =>
      intro others other
      cases others with
      | nil => rfl
      | cons node rest => exact absurd linked other.1
  | cons node rest ih =>
      intro others other
      cases others with
      | nil => exact absurd other linked.1
      | cons node' rest' =>
          have same : node' = node := other.2.1.symm.trans linked.2.1
          subst same
          rw [ih linked.2.2 other.2.2]

/-- A list of nodes depends only on the links of its own nodes. -/
theorem Linked.congr (linked : kind.Linked next value nodes)
    (agree : forall node, node ∈ nodes -> next' node = next node) :
    kind.Linked next' value nodes := by
  induction nodes generalizing value with
  | nil => exact linked
  | cons node rest ih =>
      refine ⟨linked.1, linked.2.1, ?_⟩
      rw [agree node List.mem_cons_self]
      exact ih linked.2.2 (fun other member => agree other (List.mem_cons_of_mem node member))

theorem Linked.eq_nil_iff (linked : kind.Linked next value nodes) :
    nodes = [] <-> value = kind.stop := by
  cases nodes with
  | nil => exact ⟨fun _ => linked, fun _ => rfl⟩
  | cons node rest =>
      constructor
      · intro impossible; cases impossible
      · intro stopped; exact absurd stopped linked.1

/-- A value other than `stop` heads a nonempty list. -/
theorem Linked.uncons (linked : kind.Linked next value nodes) (running : value ≠ kind.stop) :
    ∃ tail, nodes = kind.target value :: tail ∧
      kind.Linked next (next (kind.target value)) tail := by
  cases nodes with
  | nil => exact absurd linked running
  | cons node rest =>
      rcases linked with ⟨-, named, linkedRest⟩
      subst named
      exact ⟨rest, rfl, linkedRest⟩

/-! ## Segments -/

theorem Threaded.congr (threaded : kind.Threaded next nodes final)
    (agree : forall node, node ∈ nodes -> next' node = next node) :
    kind.Threaded next' nodes final := by
  induction nodes with
  | nil => trivial
  | cons node rest ih =>
      have first := agree node List.mem_cons_self
      cases rest with
      | nil => exact first.trans threaded
      | cons after rest =>
          refine ⟨first ▸ threaded.1, first ▸ threaded.2.1, ?_⟩
          exact ih threaded.2.2 (fun other member => agree other (List.mem_cons_of_mem node member))

/-- A node that is followed by another one names it. -/
theorem Threaded.target {before after : List Node} {node node' : Node}
    (threaded : kind.Threaded next (before ++ node :: node' :: after) final) :
    kind.target (next node) = node' := by
  induction before with
  | nil => exact threaded.2.1
  | cons first before ih =>
      cases before with
      | nil => exact ih threaded.2.2
      | cons second before => exact ih threaded.2.2

/-- Put a threaded segment in front of a list. -/
theorem Linked.attach (tail : kind.Linked next final rest)
    (threaded : kind.Threaded next nodes final) (running : value ≠ kind.stop)
    (named : nodes.head? = some (kind.target value)) :
    kind.Linked next value (nodes ++ rest) := by
  induction nodes generalizing value with
  | nil => cases named
  | cons node others ih =>
      have same : node = kind.target value := Option.some.inj named
      refine ⟨running, same.symm, ?_⟩
      cases others with
      | nil =>
          have last : next node = final := threaded
          rw [last]
          exact tail
      | cons after others =>
          exact ih threaded.2.2 threaded.1 (congrArg some threaded.2.1.symm)

/-- The last node of a segment may get another link. -/
theorem Threaded.relink {done : List Node} {last : Node}
    (threaded : kind.Threaded next (done ++ [last]) final)
    (agree : forall node, node ∈ done -> next' node = next node) (link : next' last = value) :
    kind.Threaded next' (done ++ [last]) value := by
  induction done with
  | nil => exact link
  | cons node done ih =>
      have same := agree node List.mem_cons_self
      have later : kind.Threaded next (done ++ [last]) final ->
          kind.Threaded next' (done ++ [last]) value :=
        fun tail => ih tail (fun other member => agree other (List.mem_cons_of_mem _ member))
      cases done with
      | nil => exact ⟨same ▸ threaded.1, same ▸ threaded.2.1, later threaded.2.2⟩
      | cons after done => exact ⟨same ▸ threaded.1, same ▸ threaded.2.1, later threaded.2.2⟩

/-- A segment whose last link names a further node goes on with that node. -/
theorem Threaded.extend {done : List Node} {last node : Node}
    (threaded : kind.Threaded next (done ++ [last]) final) (running : final ≠ kind.stop)
    (named : kind.target final = node) :
    kind.Threaded next (done ++ [last] ++ [node]) (next node) := by
  induction done with
  | nil =>
      have link : next last = final := threaded
      exact ⟨link ▸ running, link ▸ named, rfl⟩
  | cons first done ih =>
      cases done with
      | nil => exact ⟨threaded.1, threaded.2.1, ih threaded.2.2⟩
      | cons after done => exact ⟨threaded.1, threaded.2.1, ih threaded.2.2⟩

/-! ## Following the links -/

/-- The nodes visited from `value`, at most as many as the fuel. -/
def follow [DecidableEq Link] (kind : LinkKind Link Node) (next : Node -> Link) :
    Nat -> Link -> List Node
  | 0, _ => []
  | fuel + 1, value =>
      if value = kind.stop then []
      else kind.target value :: follow kind next fuel (next (kind.target value))

theorem Linked.follow [DecidableEq Link] (linked : kind.Linked next value nodes) :
    forall {fuel : Nat}, nodes.length ≤ fuel -> kind.follow next fuel value = nodes := by
  induction nodes generalizing value with
  | nil =>
      intro fuel _
      cases fuel with
      | zero => rfl
      | succ fuel => exact if_pos linked
  | cons node rest ih =>
      intro fuel enough
      rcases linked with ⟨running, named, linkedRest⟩
      cases fuel with
      | zero => cases enough
      | succ fuel =>
          subst named
          rw [LinkKind.follow, if_neg running, ih linkedRest (Nat.le_of_succ_le_succ enough)]

/-! ## The link values of a list -/

theorem values_congr (agree : forall node, node ∈ nodes -> next' node = next node) :
    values next' value nodes = values next value nodes := by
  induction nodes generalizing value with
  | nil => rfl
  | cons node rest ih =>
      simp only [values]
      rw [agree node List.mem_cons_self]
      rw [ih (fun other member => agree other (List.mem_cons_of_mem node member))]

theorem Linked.target_mem (linked : kind.Linked next value nodes) : forall {link : Link},
    link ∈ values next value nodes -> kind.target link ∈ nodes := by
  induction nodes generalizing value with
  | nil => intro link member; cases member
  | cons node rest ih =>
      intro link member
      rcases List.mem_cons.mp member with same | later
      · rw [same, linked.2.1]
        exact List.mem_cons_self
      · exact List.mem_cons_of_mem node (ih linked.2.2 later)

theorem Linked.ne_stop_of_mem (linked : kind.Linked next value nodes) : forall {link : Link},
    link ∈ values next value nodes -> link ≠ kind.stop := by
  induction nodes generalizing value with
  | nil => intro link member; cases member
  | cons node rest ih =>
      intro link member
      rcases List.mem_cons.mp member with same | later
      · rw [same]; exact linked.1
      · exact ih linked.2.2 later

/-- The values of a list are its first value and links of its nodes. -/
theorem mem_values {link : Link} : link ∈ values next value nodes ->
    link = value ∨ ∃ node, node ∈ nodes ∧ link = next node := by
  induction nodes generalizing value with
  | nil => intro member; cases member
  | cons node rest ih =>
      intro member
      rcases List.mem_cons.mp member with same | later
      · exact Or.inl same
      · rcases ih later with isNext | ⟨inner, inside, isLink⟩
        · exact Or.inr ⟨node, List.mem_cons_self, isNext⟩
        · exact Or.inr ⟨inner, List.mem_cons_of_mem node inside, isLink⟩

/-- The values of an attached segment are its head value, the links inside the
segment and the values of the old list. -/
theorem mem_values_append (threaded : kind.Threaded next nodes final) (nonempty : nodes ≠ [])
    {link : Link} : link ∈ values next value (nodes ++ rest) ->
      link = value ∨ (∃ node, node ∈ nodes.dropLast ∧ link = next node) ∨
        link ∈ values next final rest := by
  induction nodes generalizing value with
  | nil => exact absurd rfl nonempty
  | cons node others ih =>
      intro member
      rcases List.mem_cons.mp member with same | later
      · exact Or.inl same
      cases others with
      | nil =>
          have last : next node = final := threaded
          right; right
          rwa [← last]
      | cons after others =>
          rcases ih threaded.2.2 (List.cons_ne_nil after others) later with
            isNext | ⟨inner, member, isLink⟩ | old
          · exact Or.inr (Or.inl ⟨node, List.mem_cons_self, isNext⟩)
          · exact Or.inr (Or.inl ⟨inner, List.mem_cons_of_mem node member, isLink⟩)
          · exact Or.inr (Or.inr old)

end LinkKind

end Foundation
