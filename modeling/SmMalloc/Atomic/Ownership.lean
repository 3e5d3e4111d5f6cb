import SmMalloc.Atomic.Machine
import SmMalloc.Foundation.Custody

namespace SmMalloc

open Foundation

/-!
# Who owns the blocks while the steps interleave

A block is on the list, in the stack of a thread, in the hands of a call that
is about to put it on the list, or with a client; only its owner writes its
link.  The list itself is changed by the two kinds of compare-exchange alone.

`Owned` is the invariant.  Its last field is the delicate one: a call of
`Alloc` that has read the link of a tagged value which is still on the list has
read the link that is there now.  A push could break it, by putting back a
tagged value that such a call remembers from before.  `Unremembered` is the
condition that no push does so.
-/

variable {isBlock : Nat -> Prop} {s s' : AtomicBucket} {t u o : Nat} {central central' : List Nat}

namespace Point

/-- The blocks that the call in progress is about to put on the list. -/
def blocks : Point -> List Nat
  | .idle => []
  | .allocLoaded _ => []
  | .allocRead _ _ => []
  | .linking chain _ _ _ => chain.blocks
  | .freeInterval chain => chain.blocks
  | .freeTagged chain _ => chain.blocks
  | .freeLoaded chain _ _ => chain.blocks
  | .freeLinked chain _ _ => chain.blocks

/-- About to compare and exchange in `FreeInterval`. -/
def isLinked : Point -> Bool
  | .freeLinked _ _ _ => true
  | _ => false

/-- What holds of the local variables of a call, with these links in the blocks. -/
def Fine (link : Nat -> TaggedIndex) : Point -> Prop
  | .idle => True
  | .allocLoaded _ => True
  | .allocRead headValue _ => headValue ≠ TaggedIndex.invalid
  | .linking chain _ pPrevBlockMemory todo =>
      ∃ done, chain.blocks = done ++ pPrevBlockMemory :: todo ∧
        TaggedIndex.kind.Threaded link (done ++ [pPrevBlockMemory]) (link pPrevBlockMemory)
  | .freeInterval chain =>
      TaggedIndex.kind.Threaded link chain.blocks (link chain.pTail)
  | .freeTagged chain nodeValue =>
      TaggedIndex.kind.Threaded link chain.blocks (link chain.pTail) ∧
        nodeValue.offset.toNat = chain.pHead
  | .freeLoaded chain nodeValue _ =>
      TaggedIndex.kind.Threaded link chain.blocks (link chain.pTail) ∧
        nodeValue.offset.toNat = chain.pHead
  | .freeLinked chain nodeValue headValue =>
      TaggedIndex.kind.Threaded link chain.blocks headValue ∧
        nodeValue.offset.toNat = chain.pHead

end Point

theorem Chain.pTail_mem (chain : Chain) : chain.pTail ∈ chain.blocks := List.getLastD_mem_cons

theorem Chain.blocks_eq (chain : Chain) : ∃ done, chain.blocks = done ++ [chain.pTail] := by
  rcases chain with ⟨first, rest⟩
  refine ⟨(first :: rest).dropLast, ?_⟩
  have last : (first :: rest).getLast (List.cons_ne_nil _ _) = Chain.pTail ⟨first, rest⟩ := by
    rw [Chain.pTail, List.getLast_eq_getLastD]
  rw [← last]
  exact (List.dropLast_append_getLast _).symm

/-- The local facts depend only on the links of the call's own blocks. -/
theorem Point.Fine.congr {link link' : Nat -> TaggedIndex} {point : Point}
    (fine : point.Fine link) (agree : forall o, o ∈ point.blocks -> link' o = link o) :
    point.Fine link' := by
  cases point with
  | idle => trivial
  | allocLoaded headValue => trivial
  | allocRead headValue nextValue => exact fine
  | linking chain localTag previous todo =>
      rcases fine with ⟨done, parts, threaded⟩
      have inside : forall o, o ∈ done ++ [previous] -> o ∈ chain.blocks := by
        intro o member
        rw [parts]
        simp only [List.mem_append, List.mem_cons, List.not_mem_nil, or_false] at member ⊢
        rcases member with old | same
        · exact Or.inl old
        · exact Or.inr (Or.inl same)
      refine ⟨done, parts, ?_⟩
      rw [agree previous (inside previous (by simp))]
      exact threaded.congr (fun o member => agree o (inside o member))
  | freeInterval chain =>
      change TaggedIndex.kind.Threaded link' chain.blocks (link' chain.pTail)
      rw [agree chain.pTail chain.pTail_mem]
      exact LinkKind.Threaded.congr fine agree
  | freeTagged chain nodeValue =>
      refine ⟨?_, fine.2⟩
      rw [agree chain.pTail chain.pTail_mem]
      exact fine.1.congr agree
  | freeLoaded chain nodeValue headValue =>
      refine ⟨?_, fine.2⟩
      rw [agree chain.pTail chain.pTail_mem]
      exact fine.1.congr agree
  | freeLinked chain nodeValue headValue => exact ⟨fine.1.congr agree, fine.2⟩

/-- Those who own blocks. -/
inductive Keeper
  | central
  | stack (t : Nat)
  | thread (t : Nat)
  | client
  deriving DecidableEq

namespace AtomicBucket

/-- What each of them owns, when the list is `central`. -/
def keeps (s : AtomicBucket) (central : List Nat) : Keeper -> List Nat
  | .central => central
  | .stack t => s.pStorageL1 t
  | .thread t => (s.point t).blocks
  | .client => s.held

/-- The tagged values on the list. -/
def values (s : AtomicBucket) (central : List Nat) : List TaggedIndex :=
  LinkKind.values s.link s.head central

/-- The blocks are divided exactly, the links say so, and no call of `Alloc`
has an outdated link of a tagged value on the list. -/
structure Owned (isBlock : Nat -> Prop) (s : AtomicBucket) (central : List Nat) : Prop where
  linked : TaggedIndex.kind.Linked s.link s.head central
  custody : Custody (s.keeps central) isBlock
  fine : forall t, (s.point t).Fine s.link
  current : forall t headValue nextValue, s.point t = .allocRead headValue nextValue ->
    headValue ∈ s.values central -> nextValue = s.link headValue.offset.toNat

theorem goto_point (s : AtomicBucket) (t : Nat) (point : Point) : (s.goto t point).point t = point :=
  Function.update_self _ _ _

theorem goto_point_of_ne (different : u ≠ t) (point : Point) :
    (s.goto t point).point u = s.point u := Function.update_of_ne different _ _

/-! ## What a step can be -/

/-- The list after a step, when it was `central` before. -/
def after (s : AtomicBucket) (central : List Nat) : Move -> List Nat
  | .proceed t =>
      match s.point t with
      | .allocRead headValue _ => if s.head = headValue then central.tail else central
      | .freeLinked chain _ headValue =>
          if s.head = headValue then chain.blocks ++ central else central
      | _ => central
  | _ => central

/-- The next step of thread `t`, and what becomes of the list. -/
inductive Proceeds (s : AtomicBucket) (central : List Nat) (t : Nat) :
    AtomicBucket -> List Nat -> Prop
  | idle : s.point t = .idle -> Proceeds s central t s central
  | null (headValue : TaggedIndex) : s.point t = .allocLoaded headValue ->
      headValue = TaggedIndex.invalid -> Proceeds s central t (s.goto t .idle) central
  | read (headValue : TaggedIndex) : s.point t = .allocLoaded headValue ->
      headValue ≠ TaggedIndex.invalid ->
      Proceeds s central t (s.goto t (.allocRead headValue (s.link headValue.offset.toNat))) central
  | pop (headValue nextValue : TaggedIndex) : s.point t = .allocRead headValue nextValue ->
      s.head = headValue -> Proceeds s central t ({ s with
        head := nextValue
        held := headValue.offset.toNat :: s.held }.goto t .idle) central.tail
  | reload (headValue nextValue : TaggedIndex) : s.point t = .allocRead headValue nextValue ->
      s.head ≠ headValue -> Proceeds s central t (s.goto t (.allocLoaded s.head)) central
  | linked (chain : Chain) (localTag : UInt32) (previous : Nat) :
      s.point t = .linking chain localTag previous [] ->
      Proceeds s central t (s.goto t (.freeInterval chain)) central
  | link (chain : Chain) (localTag : UInt32) (previous o : Nat) (todo : List Nat) :
      s.point t = .linking chain localTag previous (o :: todo) ->
      Proceeds s central t
        ({ s with link := Function.update s.link previous ⟨localTag, UInt32.ofNat o⟩ }.goto t
          (.linking chain (localTag + 1) o todo)) central
  | draw (chain : Chain) : s.point t = .freeInterval chain ->
      Proceeds s central t ({ s with globalTag := s.globalTag + 1 }.goto t
        (.freeTagged chain ⟨s.globalTag, UInt32.ofNat chain.pHead⟩)) central
  | load (chain : Chain) (nodeValue : TaggedIndex) : s.point t = .freeTagged chain nodeValue ->
      Proceeds s central t (s.goto t (.freeLoaded chain nodeValue s.head)) central
  | store (chain : Chain) (nodeValue headValue : TaggedIndex) :
      s.point t = .freeLoaded chain nodeValue headValue ->
      Proceeds s central t ({ s with link := Function.update s.link chain.pTail headValue }.goto t
        (.freeLinked chain nodeValue headValue)) central
  | push (chain : Chain) (nodeValue headValue : TaggedIndex) :
      s.point t = .freeLinked chain nodeValue headValue -> s.head = headValue ->
      Proceeds s central t ({ s with head := nodeValue }.goto t .idle) (chain.blocks ++ central)
  | retry (chain : Chain) (nodeValue headValue : TaggedIndex) :
      s.point t = .freeLinked chain nodeValue headValue -> s.head ≠ headValue ->
      Proceeds s central t (s.goto t (.freeLoaded chain nodeValue s.head)) central

theorem proceeds (s : AtomicBucket) (central : List Nat) (t : Nat) :
    Proceeds s central t (s.proceed t) (s.after central (.proceed t)) := by
  cases here : s.point t with
  | idle =>
      simp only [proceed, after, here]
      exact .idle here
  | allocLoaded headValue =>
      simp only [proceed, after, here]
      split
      next empty => exact .null headValue here empty
      next running => exact .read headValue here running
  | allocRead headValue nextValue =>
      simp only [proceed, after, here]
      split
      next same => exact .pop headValue nextValue here same
      next other => exact .reload headValue nextValue here other
  | linking chain localTag previous todo =>
      cases todo with
      | nil =>
          simp only [proceed, after, here]
          exact .linked chain localTag previous here
      | cons o todo =>
          simp only [proceed, after, here]
          exact .link chain localTag previous o todo here
  | freeInterval chain =>
      simp only [proceed, after, here]
      exact .draw chain here
  | freeTagged chain nodeValue =>
      simp only [proceed, after, here]
      exact .load chain nodeValue here
  | freeLoaded chain nodeValue headValue =>
      simp only [proceed, after, here]
      exact .store chain nodeValue headValue here
  | freeLinked chain nodeValue headValue =>
      simp only [proceed, after, here]
      split
      next same => exact .push chain nodeValue headValue here same
      next other => exact .retry chain nodeValue headValue here other

/-- A step of a thread does not move the others. -/
theorem Proceeds.point_of_ne (moved : Proceeds s central t s' central') (other : u ≠ t) :
    s'.point u = s.point u := by
  cases moved
  case idle => rfl
  all_goals exact goto_point_of_ne other _

/-- A thread moves only by its own steps. -/
theorem step_point_of_ne {move : Move} (others : move.thread ≠ some u) :
    (s.step move).point u = s.point u := by
  have other : forall t, move.thread = some t -> u ≠ t := by
    rintro t isThread rfl
    exact others isThread
  cases move with
  | alloc t => exact goto_point_of_ne (other t rfl) _
  | free t o => exact goto_point_of_ne (other t rfl) _
  | releaseToCache t o => rfl
  | allocFromCache t =>
      simp only [step]
      split <;> rfl
  | returnL1CacheToMaster t count =>
      simp only [step]
      split
      · rfl
      · exact goto_point_of_ne (other t rfl) _
  | proceed t =>
      exact (s.proceeds [] t).point_of_ne (other t rfl)
  | write o value => rfl

theorem kept_of_point (s : AtomicBucket) (central : List Nat) {point : Point}
    (here : s.point t = point) : s.keeps central (.thread t) = point.blocks := by
  change (s.point t).blocks = point.blocks
  rw [here]

/-- What the other threads and stacks keep. -/
theorem blocks_of_ne (point : Point) (other : Keeper.thread u ≠ .thread t) :
    (Function.update s.point t point u).blocks = (s.point u).blocks := by
  rw [Function.update_of_ne (fun own => other (congrArg _ own))]

theorem stack_of_ne (left : List Nat) (other : Keeper.stack u ≠ .stack t) :
    Function.update s.pStorageL1 t left u = s.pStorageL1 u :=
  Function.update_of_ne (fun own => other (congrArg _ own)) _ _

namespace Owned

theorem fine_of_point (owned : Owned isBlock s central) {point : Point}
    (here : s.point t = point) : point.Fine s.link := here ▸ owned.fine t

/-- A block has one owner. -/
theorem owner_unique (owned : Owned isBlock s central) {first second : Keeper}
    (inFirst : o ∈ s.keeps central first) (inSecond : o ∈ s.keeps central second) :
    first = second := owned.custody.holder_unique inFirst inSecond

/-- A thread that gets to another point with the same blocks. -/
theorem goto (owned : Owned isBlock s central) {point : Point}
    (same : point.blocks = (s.point t).blocks) (fine : point.Fine s.link)
    (current : forall headValue nextValue, point = .allocRead headValue nextValue ->
      headValue ∈ s.values central -> nextValue = s.link headValue.offset.toNat) :
    Owned isBlock (s.goto t point) central where
  linked := owned.linked
  custody := by
    apply owned.custody.congr
    intro keeper
    cases keeper with
    | central => rfl
    | stack u => rfl
    | thread u =>
        by_cases here : u = t
        · subst here
          change ((s.goto u point).point u).blocks = _
          rw [goto_point]
          exact same
        · change ((s.goto t point).point u).blocks = _
          rw [goto_point_of_ne here]
          rfl
    | client => rfl
  fine := by
    intro u
    by_cases here : u = t
    · subst here
      rw [goto_point]
      exact fine
    · rw [goto_point_of_ne here]
      exact owned.fine u
  current := by
    intro u headValue nextValue at_ member
    by_cases here : u = t
    · subst here
      rw [goto_point] at at_
      exact current headValue nextValue at_ member
    · rw [goto_point_of_ne here] at at_
      exact owned.current u headValue nextValue at_ member

theorem relink_agree (owned : Owned isBlock s central) {keeper : Keeper} {value : TaggedIndex}
    (member : o ∈ s.keeps central keeper) (notCentral : keeper ≠ .central) (o' : Nat)
    (listed : o' ∈ central) : Function.update s.link o value o' = s.link o' := by
  apply Function.update_of_ne
  rintro rfl
  have onList : o' ∈ s.keeps central .central := listed
  exact notCentral (owned.owner_unique member onList)

theorem relink_values (owned : Owned isBlock s central) (value : TaggedIndex) {keeper : Keeper}
    (member : o ∈ s.keeps central keeper) (notCentral : keeper ≠ .central) :
    LinkKind.values (Function.update s.link o value) s.head central = s.values central :=
  LinkKind.values_congr (owned.relink_agree member notCentral)

/-- A write of a link into a block that is not on the list, by its owner. -/
theorem relink (owned : Owned isBlock s central) {keeper : Keeper} {value : TaggedIndex}
    (member : o ∈ s.keeps central keeper) (notCentral : keeper ≠ .central)
    (fine : forall u, keeper = .thread u ->
      (s.point u).Fine (Function.update s.link o value)) :
    Owned isBlock { s with link := Function.update s.link o value } central := by
  have agree : forall o', o' ∈ central -> Function.update s.link o value o' = s.link o' :=
    owned.relink_agree member notCentral
  have values : LinkKind.values (Function.update s.link o value) s.head central =
      s.values central := owned.relink_values _ member notCentral
  refine ⟨owned.linked.congr agree, owned.custody.congr ?_, ?_, ?_⟩
  · intro other
    cases other <;> rfl
  · intro u
    by_cases own : keeper = .thread u
    · exact fine u own
    · apply (owned.fine u).congr
      intro o' inside
      apply Function.update_of_ne
      rintro rfl
      have inThread : o' ∈ s.keeps central (.thread u) := inside
      exact own (owned.owner_unique member inThread)
  · intro u headValue nextValue here listed
    change headValue ∈ LinkKind.values (Function.update s.link o value) s.head central at listed
    rw [values] at listed
    have same := agree _ (owned.linked.target_mem listed)
    exact (owned.current u headValue nextValue here listed).trans same.symm

/-- Blocks that change hands, but not to or from the list. -/
theorem transfer (owned : Owned isBlock s central) {first second : Keeper}
    (different : first ≠ second) (link : s'.link = s.link) (head : s'.head = s.head)
    (perm : (s'.keeps central first ++ s'.keeps central second).Perm
      (s.keeps central first ++ s.keeps central second))
    (same : forall other, other ≠ first -> other ≠ second ->
      s'.keeps central other = s.keeps central other)
    (fine : forall u, (s'.point u).Fine s.link)
    (current : forall u headValue nextValue, s'.point u = .allocRead headValue nextValue ->
      s.point u = .allocRead headValue nextValue) : Owned isBlock s' central where
  linked := by
    rw [link, head]
    exact owned.linked
  custody := owned.custody.transfer first second different perm same
  fine := by
    rw [link]
    exact fine
  current := by
    intro u headValue nextValue here listed
    rw [values, link, head] at listed
    rw [link]
    exact owned.current u headValue nextValue (current u headValue nextValue here) listed

/-- The compare-exchange of `Alloc` takes the first block off the list. -/
theorem pop (owned : Owned isBlock s central) {headValue nextValue : TaggedIndex}
    (here : s.point t = .allocRead headValue nextValue) (same : s.head = headValue) :
    central = headValue.offset.toNat :: central.tail ∧
      nextValue = s.link headValue.offset.toNat ∧
      Owned isBlock ({ s with
        head := nextValue
        held := headValue.offset.toNat :: s.held }.goto t .idle) central.tail := by
  have running : headValue ≠ TaggedIndex.invalid := owned.fine_of_point here
  subst same
  rcases owned.linked.uncons running with ⟨rest, list, linked⟩
  subst list
  have listed : s.head ∈ s.values (s.head.offset.toNat :: rest) := List.mem_cons_self
  have next := owned.current t _ nextValue here listed
  refine ⟨rfl, next, ?_, ?_, ?_, ?_⟩
  · rw [next]
    exact linked
  · apply owned.custody.transfer .central .client (by decide)
    · exact List.perm_middle
    · intro other notCentral notClient
      cases other with
      | central => exact absurd rfl notCentral
      | stack u => rfl
      | thread u =>
          change (Function.update s.point t Point.idle u).blocks = (s.point u).blocks
          by_cases own : u = t
          · rw [own, Function.update_self, here]
            rfl
          · rw [Function.update_of_ne own]
      | client => exact absurd rfl notClient
  · intro u
    by_cases own : u = t
    · rw [own, goto_point]
      trivial
    · rw [goto_point_of_ne own]
      exact owned.fine u
  · intro u value after at_ inside
    by_cases own : u = t
    · rw [own, goto_point] at at_
      cases at_
    · rw [goto_point_of_ne own] at at_
      have later : value ∈ LinkKind.values s.link nextValue rest := inside
      rw [next] at later
      exact owned.current u value after at_ (List.mem_cons_of_mem _ later)

end Owned

/-- The tagged values that a push puts on the list. -/
def pushed (s : AtomicBucket) (chain : Chain) (nodeValue : TaggedIndex) : List TaggedIndex :=
  nodeValue :: chain.blocks.dropLast.map s.link

namespace Owned

/-- The compare-exchange of `FreeInterval` puts its chain on the list. -/
theorem push (owned : Owned isBlock s central) {chain : Chain} {nodeValue headValue : TaggedIndex}
    (small : forall o, isBlock o -> o + 1 < 2 ^ 32)
    (here : s.point t = .freeLinked chain nodeValue headValue) (same : s.head = headValue)
    (unremembered : forall u value nextValue, s.point u = .allocRead value nextValue ->
      value ∈ s.pushed chain nodeValue -> nextValue = s.link value.offset.toNat) :
    Owned isBlock ({ s with head := nodeValue }.goto t .idle) (chain.blocks ++ central) := by
  rcases owned.fine_of_point here with ⟨threaded, named⟩
  have kept : s.keeps central (.thread t) = chain.blocks := kept_of_point s central here
  have running : nodeValue ≠ TaggedIndex.invalid := by
    rintro rfl
    have first : chain.pHead ∈ s.keeps central (.thread t) := by
      rw [kept]
      exact List.mem_cons_self
    have bound := small _ (owned.custody.supplied _ first)
    rw [← named] at bound
    exact absurd bound (by decide)
  subst same
  refine ⟨?_, ?_, ?_, ?_⟩
  · exact owned.linked.attach threaded running (congrArg some named.symm)
  · apply owned.custody.transfer .central (.thread t) (by intro equal; cases equal)
    · rw [kept]
      change ((chain.blocks ++ central) ++ (Function.update s.point t Point.idle t).blocks).Perm _
      rw [Function.update_self]
      change ((chain.blocks ++ central) ++ []).Perm (central ++ chain.blocks)
      rw [List.append_nil]
      exact List.perm_append_comm
    · intro other notCentral notThread
      cases other with
      | central => exact absurd rfl notCentral
      | stack u => rfl
      | thread u => exact blocks_of_ne _ notThread
      | client => rfl
  · intro u
    by_cases own : u = t
    · rw [own, goto_point]
      trivial
    · rw [goto_point_of_ne own]
      exact owned.fine u
  · intro u value after at_ inside
    by_cases own : u = t
    · rw [own, goto_point] at at_
      cases at_
    · rw [goto_point_of_ne own] at at_
      have nonempty : chain.blocks ≠ [] := List.cons_ne_nil _ _
      rcases LinkKind.mem_values_append threaded nonempty inside with
        isNode | ⟨inner, member, isLink⟩ | old
      · apply unremembered u value after at_
        rw [isNode]
        exact List.mem_cons_self
      · apply unremembered u value after at_
        rw [isLink]
        exact List.mem_cons_of_mem _ (List.mem_map.mpr ⟨inner, member, rfl⟩)
      · exact owned.current u value after at_ old

/-! ## The other steps -/

/-- A thread that was idle begins a call that is not `Alloc`. -/
theorem begin_current {point : Point} (s : AtomicBucket)
    (noRead : forall headValue nextValue, point ≠ .allocRead headValue nextValue)
    (isPoint : s'.point = Function.update s.point t point) (u : Nat)
    (headValue nextValue : TaggedIndex) (here : s'.point u = .allocRead headValue nextValue) :
    s.point u = .allocRead headValue nextValue := by
  rw [isPoint] at here
  by_cases own : u = t
  · rw [own, Function.update_self] at here
    exact absurd here (noRead _ _)
  · rwa [Function.update_of_ne own] at here

theorem begin_fine (owned : Owned isBlock s central) {point : Point} (fine : point.Fine s.link)
    (isPoint : s'.point = Function.update s.point t point) (u : Nat) :
    (s'.point u).Fine s.link := by
  rw [isPoint]
  by_cases own : u = t
  · rw [own, Function.update_self]
    exact fine
  · rw [Function.update_of_ne own]
    exact owned.fine u

theorem free (owned : Owned isBlock s central) (idle : s.point t = .idle) (member : o ∈ s.held) :
    Owned isBlock (s.step (.free t o)) central := by
  have clientThread : Keeper.client ≠ Keeper.thread t := by
    intro equal
    cases equal
  have none : (s.point t).blocks = [] := by rw [idle]; rfl
  have isPoint : (s.step (.free t o)).point =
      Function.update s.point t (.freeInterval ⟨o, []⟩) := rfl
  have sameHead : (s.step (.free t o)).head = s.head := rfl
  refine owned.transfer clientThread rfl sameHead ?_ ?_ ?_ ?_
  · change (s.held.erase o ++ (Function.update s.point t _ t).blocks).Perm
      (s.held ++ (s.point t).blocks)
    rw [Function.update_self, none, List.append_nil]
    exact (List.perm_append_singleton o _).trans (List.perm_cons_erase member).symm
  · intro other notClient notThread
    cases other with
    | central => rfl
    | stack u => rfl
    | thread u => exact blocks_of_ne _ notThread
    | client => exact absurd rfl notClient
  · have fine : Point.Fine s.link (.freeInterval ⟨o, []⟩) := rfl
    exact owned.begin_fine fine isPoint
  · exact begin_current s (fun _ _ equal => by cases equal) isPoint

theorem releaseToCache (owned : Owned isBlock s central) (member : o ∈ s.held) :
    Owned isBlock (s.step (.releaseToCache t o)) central := by
  have clientStack : Keeper.client ≠ Keeper.stack t := by
    intro equal
    cases equal
  have sameHead : (s.step (.releaseToCache t o)).head = s.head := rfl
  refine owned.transfer clientStack rfl sameHead ?_ ?_ owned.fine (fun _ _ _ same => same)
  · change (s.held.erase o ++ Function.update s.pStorageL1 t _ t).Perm
      (s.held ++ s.pStorageL1 t)
    rw [Function.update_self, ← List.append_assoc]
    exact (List.perm_append_singleton o _).trans
      ((List.perm_cons_erase member).symm.append_right (s.pStorageL1 t))
  · intro other notClient notStack
    cases other with
    | central => rfl
    | stack u => exact stack_of_ne _ notStack
    | thread u => rfl
    | client => exact absurd rfl notClient

theorem allocFromCache (owned : Owned isBlock s central) :
    Owned isBlock (s.step (.allocFromCache t)) central := by
  have clientStack : Keeper.client ≠ Keeper.stack t := by
    intro equal
    cases equal
  cases last : (s.pStorageL1 t).getLast? with
  | none =>
      have same : s.step (.allocFromCache t) = s := by simp only [step, last]
      rw [same]
      exact owned
  | some o =>
      have taken : s.step (.allocFromCache t) = { s with
          held := o :: s.held
          pStorageL1 := Function.update s.pStorageL1 t (s.pStorageL1 t).dropLast } := by
        simp only [step, last]
      have parts : (s.pStorageL1 t).dropLast ++ [o] = s.pStorageL1 t :=
        List.dropLast_append_getLast? o last
      rw [taken]
      refine owned.transfer clientStack rfl rfl ?_ ?_ owned.fine (fun _ _ _ same => same)
      · change ((o :: s.held) ++ Function.update s.pStorageL1 t _ t).Perm
          (s.held ++ s.pStorageL1 t)
        rw [Function.update_self]
        have moved := (List.perm_append_singleton o (s.pStorageL1 t).dropLast).append_left s.held
        rw [parts] at moved
        exact (moved.trans List.perm_middle).symm
      · intro other notClient notStack
        cases other with
        | central => rfl
        | stack u => exact stack_of_ne _ notStack
        | thread u => rfl
        | client => exact absurd rfl notClient

theorem returnL1CacheToMaster {count : Nat} (owned : Owned isBlock s central)
    (idle : s.point t = .idle) : Owned isBlock (s.step (.returnL1CacheToMaster t count)) central := by
  have stackThread : Keeper.stack t ≠ Keeper.thread t := by
    intro equal
    cases equal
  have none : (s.point t).blocks = [] := by rw [idle]; rfl
  obtain ⟨cut, isCut⟩ : ∃ cut, cut =
    (s.pStorageL1 t).length - min count (s.pStorageL1 t).length := ⟨_, rfl⟩
  cases taken : (s.pStorageL1 t).drop cut with
  | nil =>
      have same : s.step (.returnL1CacheToMaster t count) = s := by
        simp only [step, ← isCut, taken]
      rw [same]
      exact owned
  | cons pHead rest =>
      have opened : s.step (.returnL1CacheToMaster t count) =
          { s with pStorageL1 := Function.update s.pStorageL1 t ((s.pStorageL1 t).take cut) }.goto t
            (.linking ⟨pHead, rest⟩ 0xFFFFFF pHead rest) := by
        simp only [step, ← isCut, taken]
      have parts : (s.pStorageL1 t).take cut ++ pHead :: rest = s.pStorageL1 t := by
        rw [← taken]
        exact List.take_append_drop _ _
      have isPoint : (s.step (.returnL1CacheToMaster t count)).point =
          Function.update s.point t (.linking ⟨pHead, rest⟩ 0xFFFFFF pHead rest) := by
        rw [opened]
        rfl
      rw [opened] at isPoint ⊢
      refine owned.transfer stackThread rfl rfl ?_ ?_ ?_ ?_
      · change (Function.update s.pStorageL1 t _ t ++ (Function.update s.point t _ t).blocks).Perm
          (s.pStorageL1 t ++ (s.point t).blocks)
        rw [Function.update_self, Function.update_self, none, List.append_nil]
        exact List.Perm.of_eq parts
      · intro other notStack notThread
        cases other with
        | central => rfl
        | stack u => exact stack_of_ne _ notStack
        | thread u => exact blocks_of_ne _ notThread
        | client => rfl
      · have fine : Point.Fine s.link (.linking ⟨pHead, rest⟩ 0xFFFFFF pHead rest) :=
          ⟨[], rfl, rfl⟩
        exact owned.begin_fine fine isPoint
      · exact begin_current s (fun _ _ equal => by cases equal) isPoint

/-! ## The steps of a call in progress -/

/-- The loop of `ReturnL1CacheToMaster` ends with the last block of the chain. -/
theorem linking_done (owned : Owned isBlock s central) {chain : Chain} {localTag : UInt32}
    {previous : Nat} (here : s.point t = .linking chain localTag previous []) :
    Owned isBlock (s.goto t (.freeInterval chain)) central := by
  rcases owned.fine_of_point here with ⟨done, parts, threaded⟩
  refine owned.goto ?_ ?_ (fun _ _ equal => by cases equal)
  · rw [here]
    rfl
  · have last : chain.pTail = previous := by
      rcases chain.blocks_eq with ⟨start, ends⟩
      rw [ends] at parts
      exact List.singleton_inj.mp (List.append_inj_right' parts rfl)
    change TaggedIndex.kind.Threaded s.link chain.blocks (s.link chain.pTail)
    rw [last, parts]
    exact threaded

/-- The loop of `ReturnL1CacheToMaster` links one more block. -/
theorem linking_next (owned : Owned isBlock s central) (small : forall o, isBlock o -> o + 1 < 2 ^ 32)
    {chain : Chain} {localTag : UInt32} {previous : Nat} {todo : List Nat}
    (here : s.point t = .linking chain localTag previous (o :: todo)) :
    Owned isBlock ({ s with
      link := Function.update s.link previous ⟨localTag, UInt32.ofNat o⟩ }.goto t
        (.linking chain (localTag + 1) o todo)) central := by
  rcases owned.fine_of_point here with ⟨done, parts, threaded⟩
  have kept := kept_of_point s central here
  have nodup := owned.custody.nodup (.thread t)
  change s.keeps central (.thread t) = chain.blocks at kept
  rw [kept, parts] at nodup
  have isOwn : forall o', o' ∈ done ++ previous :: o :: todo ->
      o' ∈ s.keeps central (.thread t) := by
    intro o' member
    rw [kept, parts]
    exact member
  have bound : o + 1 < 2 ^ 32 :=
    small o (owned.custody.supplied _ (isOwn o (by simp)))
  have agree : forall o', o' ∈ done ->
      Function.update s.link previous ⟨localTag, UInt32.ofNat o⟩ o' = s.link o' := by
    intro o' member
    apply Function.update_of_ne
    rintro rfl
    exact (List.nodup_append.mp nodup).2.2 _ member _ List.mem_cons_self rfl
  have relinked := threaded.relink agree
    (Function.update_self previous ⟨localTag, UInt32.ofNat o⟩ s.link)
  have written : Owned isBlock { s with
      link := Function.update s.link previous ⟨localTag, UInt32.ofNat o⟩ } central := by
    refine owned.relink (isOwn previous (by simp)) (fun equal => by cases equal) ?_
    intro u own
    injection own with own
    subst own
    rw [here]
    refine ⟨done, parts, ?_⟩
    rw [Function.update_self]
    exact relinked
  have offset : (UInt32.ofNat o).toNat = o :=
    UInt32.toNat_ofNat_of_lt' (Nat.lt_of_succ_lt bound)
  refine written.goto ?_ ⟨done ++ [previous], ?_, ?_⟩ (fun _ _ equal => by cases equal)
  · exact kept.symm
  · rw [parts, List.append_assoc]
    rfl
  · refine relinked.extend ?_ offset
    intro equal
    have invalid : (UInt32.ofNat o).toNat = 0xFFFFFFFF :=
      congrArg (fun value : TaggedIndex => value.offset.toNat) equal
    omega

/-- `FreeInterval` links the last block of its chain to the head it has seen. -/
theorem store (owned : Owned isBlock s central) {chain : Chain} {nodeValue headValue : TaggedIndex}
    (here : s.point t = .freeLoaded chain nodeValue headValue) :
    Owned isBlock ({ s with link := Function.update s.link chain.pTail headValue }.goto t
      (.freeLinked chain nodeValue headValue)) central := by
  rcases owned.fine_of_point here with ⟨threaded, named⟩
  have kept : s.keeps central (.thread t) = chain.blocks := kept_of_point s central here
  have nodup := owned.custody.nodup (.thread t)
  rw [kept] at nodup
  rcases chain.blocks_eq with ⟨done, parts⟩
  have relinked : TaggedIndex.kind.Threaded (Function.update s.link chain.pTail headValue)
      chain.blocks headValue := by
    rw [parts] at nodup threaded ⊢
    refine threaded.relink ?_ (Function.update_self _ _ _)
    intro o member
    apply Function.update_of_ne
    rintro rfl
    exact (List.nodup_append.mp nodup).2.2 _ member _ List.mem_cons_self rfl
  have tail : chain.pTail ∈ s.keeps central (.thread t) := by
    rw [kept]
    exact chain.pTail_mem
  have written : Owned isBlock { s with
      link := Function.update s.link chain.pTail headValue } central := by
    refine owned.relink tail (fun equal => by cases equal) ?_
    intro u own
    injection own with own
    subst own
    rw [here]
    refine ⟨?_, named⟩
    rw [Function.update_self]
    exact relinked
  exact written.goto kept.symm ⟨relinked, named⟩ (fun _ _ equal => by cases equal)

/-- `FreeInterval` draws its tag. -/
theorem draw (owned : Owned isBlock s central) (small : forall o, isBlock o -> o + 1 < 2 ^ 32)
    {chain : Chain} (here : s.point t = .freeInterval chain) :
    Owned isBlock ({ s with globalTag := s.globalTag + 1 }.goto t
      (.freeTagged chain ⟨s.globalTag, UInt32.ofNat chain.pHead⟩)) central := by
  have kept : s.keeps central (.thread t) = chain.blocks := kept_of_point s central here
  have first : chain.pHead ∈ s.keeps central (.thread t) := by
    rw [kept]
    exact List.mem_cons_self
  have bound := small _ (owned.custody.supplied _ first)
  have counted : Owned isBlock { s with globalTag := s.globalTag + 1 } central := by
    refine ⟨owned.linked, owned.custody.congr ?_, owned.fine, owned.current⟩
    intro keeper
    cases keeper <;> rfl
  refine counted.goto kept.symm ⟨owned.fine_of_point here, ?_⟩ (fun _ _ equal => by cases equal)
  exact UInt32.toNat_ofNat_of_lt' (Nat.lt_of_succ_lt bound)

end Owned

/-! ## Every step -/

/-- No push puts back a tagged value that a call of `Alloc` remembers with
another link than it has now. -/
def Unremembered (s : AtomicBucket) (move : Move) : Prop :=
  forall t chain nodeValue headValue, move = .proceed t ->
    s.point t = .freeLinked chain nodeValue headValue -> s.head = headValue ->
    forall u value nextValue, s.point u = .allocRead value nextValue ->
      value ∈ s.pushed chain nodeValue -> nextValue = s.link value.offset.toNat

namespace Owned

theorem proceed (owned : Owned isBlock s central) (small : forall o, isBlock o -> o + 1 < 2 ^ 32)
    (unremembered : s.Unremembered (.proceed t)) (moved : Proceeds s central t s' central') :
    Owned isBlock s' central' := by
  cases moved with
  | idle => exact owned
  | null headValue here =>
      refine owned.goto ?_ trivial (fun _ _ equal => by cases equal)
      rw [here]
      rfl
  | read headValue here running =>
      refine owned.goto ?_ running ?_
      · rw [here]
        rfl
      · intro value nextValue equal _
        injection equal with sameValue sameNext
        rw [← sameNext, ← sameValue]
  | pop headValue nextValue here same => exact (owned.pop here same).2.2
  | reload headValue nextValue here =>
      refine owned.goto ?_ trivial (fun _ _ equal => by cases equal)
      rw [here]
      rfl
  | linked chain localTag previous here => exact owned.linking_done here
  | link chain localTag previous o todo here => exact owned.linking_next small here
  | draw chain here => exact owned.draw small here
  | load chain nodeValue here =>
      have fine := owned.fine_of_point here
      refine owned.goto ?_ fine (fun _ _ equal => by cases equal)
      rw [here]
      rfl
  | store chain nodeValue headValue here => exact owned.store here
  | push chain nodeValue headValue here same =>
      exact owned.push small here same (unremembered t chain nodeValue headValue rfl here same)
  | retry chain nodeValue headValue here =>
      rcases owned.fine_of_point here with ⟨threaded, named⟩
      refine owned.goto ?_ ⟨?_, named⟩ (fun _ _ equal => by cases equal)
      · rw [here]
        rfl
      · rcases chain.blocks_eq with ⟨done, parts⟩
        rw [parts] at threaded ⊢
        exact threaded.relink (fun _ _ => rfl) rfl

/-- The invariant is kept by every step whose push is not remembered. -/
theorem step (owned : Owned isBlock s central) (small : forall o, isBlock o -> o + 1 < 2 ^ 32)
    {move : Move} (allowed : s.Allowed move) (unremembered : s.Unremembered move) :
    Owned isBlock (s.step move) (s.after central move) := by
  cases move with
  | alloc t =>
      refine owned.goto ?_ trivial (fun _ _ equal => by cases equal)
      rw [allowed]
      rfl
  | free t o => exact owned.free allowed.1 allowed.2
  | releaseToCache t o => exact owned.releaseToCache allowed.2
  | allocFromCache t => exact owned.allocFromCache
  | returnL1CacheToMaster t count => exact owned.returnL1CacheToMaster allowed
  | proceed t => exact owned.proceed small unremembered (s.proceeds central t)
  | write o value =>
      have held : o ∈ s.keeps central .client := allowed
      exact owned.relink held (fun equal => by cases equal) (fun _ equal => by cases equal)

end Owned

end AtomicBucket

end SmMalloc
