import SmMalloc.Atomic.Start

namespace SmMalloc

open Foundation

/-!
# Tags that are drawn once

Without thread caches every chain is a single block, and every tagged value
that gets to the head was made by `Create` or by a push of its own.  `Tagged`
says what the counter guarantees as long as it does not wrap around: a value
that waits to be pushed is on no list and in no call's memory, and no two such
values are alike.  So no push puts back anything that is remembered.

`Counted` keeps the counter in step with the calls, of which there can be as
many as there are tags beyond those of `Create`.
-/

variable {elementSize size t u o count calls : Nat} {s s' : AtomicBucket}
variable {central central' : List Nat} {isBlock : Nat -> Prop}

namespace Point

/-- The value of the head that a call of `Alloc` has seen. -/
def remembered : Point -> Option TaggedIndex
  | .allocLoaded headValue => if headValue = TaggedIndex.invalid then none else some headValue
  | .allocRead headValue _ => some headValue
  | _ => none

/-- The value that a call of `FreeInterval` is about to put at the head. -/
def pending : Point -> Option TaggedIndex
  | .freeTagged _ nodeValue => some nodeValue
  | .freeLoaded _ nodeValue _ => some nodeValue
  | .freeLinked _ nodeValue _ => some nodeValue
  | _ => none

/-- No call works on a chain of more than one block. -/
def Single : Point -> Prop
  | .linking _ _ _ _ => False
  | .freeInterval chain => chain.rest = []
  | .freeTagged chain _ => chain.rest = []
  | .freeLoaded chain _ _ => chain.rest = []
  | .freeLinked chain _ _ => chain.rest = []
  | _ => True

/-- A call of `FreeInterval` that has no tag yet. -/
def isWaiting : Point -> Bool
  | .freeInterval _ => true
  | _ => false

end Point

/-- The move has nothing to do with a thread cache. -/
def Move.Uncached : Move -> Prop
  | .releaseToCache _ _ => False
  | .allocFromCache _ => False
  | .returnL1CacheToMaster _ _ => False
  | _ => True

/-- The calls of `FreeInterval` that begin with the move, without a thread cache. -/
def Move.freeIntervalCalls : Move -> Nat
  | .free _ _ => 1
  | _ => 0

instance : forall move : Move, Decidable move.Uncached
  | .alloc _ => isTrue trivial
  | .free _ _ => isTrue trivial
  | .releaseToCache _ _ => isFalse id
  | .allocFromCache _ => isFalse id
  | .returnL1CacheToMaster _ _ => isFalse id
  | .proceed _ => isTrue trivial
  | .write _ _ => isTrue trivial

namespace AtomicBucket

namespace Owned

/-- The head is on the list unless the list is empty. -/
theorem head_mem (owned : Owned isBlock s central) (running : s.head ≠ TaggedIndex.invalid) :
    s.head ∈ s.values central := by
  rcases owned.linked.uncons running with ⟨rest, list, -⟩
  rw [list]
  exact List.mem_cons_self

/-- What is left on the list by a pop. -/
theorem mem_values_pop (owned : Owned isBlock s central) {headValue nextValue value : TaggedIndex}
    (here : s.point t = .allocRead headValue nextValue) (same : s.head = headValue)
    (listed : value ∈ LinkKind.values s.link nextValue central.tail) : value ∈ s.values central := by
  rcases owned.pop here same with ⟨list, next, -⟩
  rw [next] at listed
  rw [list, values]
  exact List.mem_cons_of_mem _ listed

/-- What is on the list after the push of a single block. -/
theorem mem_values_push (owned : Owned isBlock s central) {chain : Chain}
    {nodeValue headValue value : TaggedIndex}
    (here : s.point t = .freeLinked chain nodeValue headValue) (same : s.head = headValue)
    (single : chain.rest = [])
    (listed : value ∈ LinkKind.values s.link nodeValue (chain.blocks ++ central)) :
    value = nodeValue ∨ value ∈ s.values central := by
  have fine := owned.fine_of_point here
  rcases LinkKind.mem_values_append fine.1 (List.cons_ne_nil _ _) listed with
    isNode | ⟨inner, member, -⟩ | old
  · exact Or.inl isNode
  · rw [Chain.blocks, single] at member
    cases member
  · right
    rw [values, same]
    exact old

end Owned

/-- A tagged value that is on the list or has been seen there. -/
def Known (s : AtomicBucket) (central : List Nat) (value : TaggedIndex) : Prop :=
  value ∈ s.values central ∨ ∃ t, (s.point t).remembered = some value

/-- Every tag in use was drawn, and those of waiting values are used nowhere else. -/
structure Tagged (s : AtomicBucket) (central : List Nat) : Prop where
  single : forall t, (s.point t).Single
  known : forall value, s.Known central value -> value.tag.toNat < s.globalTag.toNat
  pending : forall t nodeValue, (s.point t).pending = some nodeValue ->
    nodeValue.tag.toNat < s.globalTag.toNat
  fresh : forall t nodeValue value, (s.point t).pending = some nodeValue ->
    s.Known central value -> nodeValue.tag ≠ value.tag
  distinct : forall t u nodeValue otherValue, t ≠ u -> (s.point t).pending = some nodeValue ->
    (s.point u).pending = some otherValue -> nodeValue.tag ≠ otherValue.tag

namespace Tagged

/-- A push that is not remembered. -/
theorem unremembered (tagged : Tagged s central) (move : Move) : s.Unremembered move := by
  intro t chain nodeValue headValue _ here _ u value nextValue reading member
  have single := tagged.single t
  rw [here] at single
  have rest : chain.rest = [] := single
  have isNode : value = nodeValue := by
    rw [pushed, Chain.blocks, rest] at member
    exact List.mem_singleton.mp member
  have waits : (s.point t).pending = some nodeValue := by rw [here]; rfl
  have seen : (s.point u).remembered = some nodeValue := by rw [reading, isNode]; rfl
  exact absurd rfl (tagged.fresh t nodeValue nodeValue waits (Or.inr ⟨u, seen⟩))

/-- A step that draws no tag.  Only a value that some call was about to put at
the head may become known. -/
theorem keep (tagged : Tagged s central) (globalTag : s'.globalTag = s.globalTag)
    (single : forall u, (s'.point u).Single)
    (pending : forall u nodeValue, (s'.point u).pending = some nodeValue ->
      (s.point u).pending = some nodeValue)
    (known : forall value, s'.Known central' value -> s.Known central value ∨
      ∃ t, (s.point t).pending = some value ∧ (s'.point t).pending = none) :
    Tagged s' central' where
  single := single
  known := by
    intro value isKnown
    rw [globalTag]
    rcases known value isKnown with old | ⟨t, waits, -⟩
    · exact tagged.known value old
    · exact tagged.pending t value waits
  pending := by
    intro u nodeValue waits
    rw [globalTag]
    exact tagged.pending u nodeValue (pending u nodeValue waits)
  fresh := by
    intro u nodeValue value waits isKnown
    have waited := pending u nodeValue waits
    rcases known value isKnown with old | ⟨t, published, done⟩
    · exact tagged.fresh u nodeValue value waited old
    · apply tagged.distinct u t nodeValue value _ waited published
      rintro rfl
      rw [done] at waits
      cases waits
  distinct := by
    intro u v nodeValue otherValue different waits otherWaits
    exact tagged.distinct u v nodeValue otherValue different (pending u nodeValue waits)
      (pending v otherValue otherWaits)

/-- A thread that gets to another point. -/
theorem goto (tagged : Tagged s central) {point : Point} (single : point.Single)
    (pending : forall nodeValue, point.pending = some nodeValue ->
      (s.point t).pending = some nodeValue)
    (remembered : forall value, point.remembered = some value -> s.Known central value) :
    Tagged (s.goto t point) central := by
  have globalTag : (s.goto t point).globalTag = s.globalTag := rfl
  apply tagged.keep globalTag
  · intro u
    by_cases here : u = t
    · rw [here, goto_point]
      exact single
    · rw [goto_point_of_ne here]
      exact tagged.single u
  · intro u nodeValue
    by_cases here : u = t
    · rw [here, goto_point]
      exact pending nodeValue
    · rw [goto_point_of_ne here]
      exact id
  · rintro value (listed | ⟨u, seen⟩)
    · exact Or.inl (Or.inl listed)
    · by_cases here : u = t
      · rw [here, goto_point] at seen
        exact Or.inl (remembered value seen)
      · rw [goto_point_of_ne here] at seen
        exact Or.inl (Or.inr ⟨u, seen⟩)

/-- A change that leaves the list and the threads alone. -/
theorem congr (tagged : Tagged s central) (globalTag : s'.globalTag = s.globalTag)
    (point : s'.point = s.point) (values : s'.values central = s.values central) :
    Tagged s' central := by
  apply tagged.keep globalTag
  · rw [point]
    exact tagged.single
  · rw [point]
    exact fun _ _ waits => waits
  · intro value isKnown
    rw [Known, values, point] at isKnown
    exact Or.inl isKnown

/-- A call of `FreeInterval` draws its tag. -/
theorem draw (tagged : Tagged s central) {chain : Chain}
    (here : s.point t = .freeInterval chain) (more : s.globalTag.toNat + 1 < 2 ^ 32) :
    Tagged ({ s with globalTag := s.globalTag + 1 }.goto t
      (.freeTagged chain ⟨s.globalTag, UInt32.ofNat chain.pHead⟩)) central := by
  obtain ⟨s', opened⟩ : ∃ s', s' = { s with globalTag := s.globalTag + 1 }.goto t
      (.freeTagged chain ⟨s.globalTag, UInt32.ofNat chain.pHead⟩) := ⟨_, rfl⟩
  rw [← opened]
  have next : (s.globalTag + 1).toNat = s.globalTag.toNat + 1 := by
    rw [UInt32.toNat_add]
    exact Nat.mod_eq_of_lt more
  have single := tagged.single t
  rw [here] at single
  have known : forall value, s'.Known central value -> s.Known central value := by
    rw [opened]
    rintro value (listed | ⟨u, seen⟩)
    · exact Or.inl listed
    · by_cases own : u = t
      · rw [own, goto_point] at seen
        cases seen
      · rw [goto_point_of_ne own] at seen
        exact Or.inr ⟨u, seen⟩
  have pending : forall u nodeValue, (s'.point u).pending = some nodeValue ->
      (u ≠ t ∧ (s.point u).pending = some nodeValue) ∨ (u = t ∧ nodeValue.tag = s.globalTag) := by
    rw [opened]
    intro u nodeValue waits
    by_cases own : u = t
    · rw [own, goto_point] at waits
      cases waits
      exact Or.inr ⟨own, rfl⟩
    · rw [goto_point_of_ne own] at waits
      exact Or.inl ⟨own, waits⟩
  have below : forall tag : UInt32, tag.toNat < s.globalTag.toNat -> tag ≠ s.globalTag := by
    rintro tag less rfl
    exact Nat.lt_irrefl _ less
  have drawn : s'.globalTag.toNat = s.globalTag.toNat + 1 := by
    rw [opened]
    exact next
  refine ⟨?_, ?_, ?_, ?_, ?_⟩
  · rw [opened]
    intro u
    by_cases own : u = t
    · rw [own, goto_point]
      exact single
    · rw [goto_point_of_ne own]
      exact tagged.single u
  · intro value isKnown
    rw [drawn]
    exact Nat.lt_succ_of_lt (tagged.known value (known value isKnown))
  · intro u nodeValue waits
    rw [drawn]
    rcases pending u nodeValue waits with ⟨-, old⟩ | ⟨-, new⟩
    · exact Nat.lt_succ_of_lt (tagged.pending u nodeValue old)
    · rw [new]
      exact Nat.lt_succ_self _
  · intro u nodeValue value waits isKnown
    rcases pending u nodeValue waits with ⟨-, old⟩ | ⟨-, new⟩
    · exact tagged.fresh u nodeValue value old (known value isKnown)
    · rw [new]
      exact (below value.tag (tagged.known value (known value isKnown))).symm
  · intro u v nodeValue otherValue different waits otherWaits
    rcases pending u nodeValue waits with ⟨-, old⟩ | ⟨isOwn, new⟩
    · rcases pending v otherValue otherWaits with ⟨-, otherOld⟩ | ⟨-, otherNew⟩
      · exact tagged.distinct u v nodeValue otherValue different old otherOld
      · rw [otherNew]
        exact below nodeValue.tag (tagged.pending u nodeValue old)
    · rcases pending v otherValue otherWaits with ⟨-, otherOld⟩ | ⟨otherOwn, -⟩
      · rw [new]
        exact (below otherValue.tag (tagged.pending v otherValue otherOld)).symm
      · exact absurd (isOwn.trans otherOwn.symm) different

/-- A load of the head. -/
theorem load (tagged : Tagged s central) (owned : Owned isBlock s central) :
    Tagged (s.goto t (.allocLoaded s.head)) central := by
  refine tagged.goto trivial (fun _ waits => by cases waits) ?_
  intro value seen
  by_cases empty : s.head = TaggedIndex.invalid
  · rw [Point.remembered, if_pos empty] at seen
    cases seen
  · rw [Point.remembered, if_neg empty] at seen
    cases seen
    exact Or.inl (owned.head_mem empty)

theorem pop (tagged : Tagged s central) (owned : Owned isBlock s central)
    {headValue nextValue : TaggedIndex} (here : s.point t = .allocRead headValue nextValue)
    (same : s.head = headValue) :
    Tagged ({ s with
      head := nextValue
      held := headValue.offset.toNat :: s.held }.goto t .idle) central.tail := by
  have popped : Tagged { s with
      head := nextValue
      held := headValue.offset.toNat :: s.held } central.tail := by
    refine tagged.keep rfl tagged.single (fun _ _ waits => waits) ?_
    rintro value (listed | seen)
    · exact Or.inl (Or.inl (owned.mem_values_pop here same listed))
    · exact Or.inl (Or.inr seen)
  exact popped.goto trivial (fun _ waits => by cases waits) (fun _ seen => by cases seen)

theorem push (tagged : Tagged s central) (owned : Owned isBlock s central) {chain : Chain}
    {nodeValue headValue : TaggedIndex} (here : s.point t = .freeLinked chain nodeValue headValue)
    (same : s.head = headValue) :
    Tagged ({ s with head := nodeValue }.goto t .idle) (chain.blocks ++ central) := by
  have single := tagged.single t
  rw [here] at single
  have waits : (s.point t).pending = some nodeValue := by rw [here]; rfl
  have globalTag : ({ s with head := nodeValue }.goto t Point.idle).globalTag = s.globalTag := rfl
  apply tagged.keep globalTag
  · intro u
    by_cases own : u = t
    · rw [own, goto_point]
      trivial
    · rw [goto_point_of_ne own]
      exact tagged.single u
  · intro u value waiting
    by_cases own : u = t
    · rw [own, goto_point] at waiting
      cases waiting
    · rwa [goto_point_of_ne own] at waiting
  · rintro value (listed | ⟨u, seen⟩)
    · rcases owned.mem_values_push here same single listed with isNode | old
      · refine Or.inr ⟨t, isNode ▸ waits, ?_⟩
        rw [goto_point]
        rfl
      · exact Or.inl (Or.inl old)
    · by_cases own : u = t
      · rw [own, goto_point] at seen
        cases seen
      · rw [goto_point_of_ne own] at seen
        exact Or.inl (Or.inr ⟨u, seen⟩)

theorem proceed (tagged : Tagged s central) (owned : Owned isBlock s central)
    (more : (s.point t).isWaiting = true -> s.globalTag.toNat + 1 < 2 ^ 32)
    (moved : Proceeds s central t s' central') : Tagged s' central' := by
  have single := tagged.single t
  cases moved with
  | idle => exact tagged
  | null headValue here =>
      exact tagged.goto trivial (fun _ waits => by cases waits) (fun _ seen => by cases seen)
  | read headValue here running =>
      refine tagged.goto trivial (fun _ waits => by cases waits) ?_
      intro value seen
      refine Or.inr ⟨t, ?_⟩
      rw [here, Point.remembered, if_neg running]
      exact seen
  | pop headValue nextValue here same => exact tagged.pop owned here same
  | reload headValue nextValue here => exact tagged.load owned
  | linked chain localTag previous here =>
      rw [here] at single
      exact absurd single id
  | link chain localTag previous o todo here =>
      rw [here] at single
      exact absurd single id
  | draw chain here => exact tagged.draw here (more (by rw [here]; rfl))
  | load chain nodeValue here =>
      rw [here] at single
      refine tagged.goto single ?_ (fun _ seen => by cases seen)
      rw [here]
      exact fun _ waits => waits
  | store chain nodeValue headValue here =>
      have own : chain.pTail ∈ s.keeps central (.thread t) := by
        rw [kept_of_point s central here]
        exact chain.pTail_mem
      have written : Tagged { s with
          link := Function.update s.link chain.pTail headValue } central :=
        tagged.congr rfl rfl (owned.relink_values _ own (fun equal => by cases equal))
      rw [here] at single
      refine written.goto single ?_ (fun _ seen => by cases seen)
      change forall value, _ -> (s.point t).pending = some value
      rw [here]
      exact fun _ waits => waits
  | push chain nodeValue headValue here same => exact tagged.push owned here same
  | retry chain nodeValue headValue here =>
      rw [here] at single
      refine tagged.goto single ?_ (fun _ seen => by cases seen)
      rw [here]
      exact fun _ waits => waits

/-- Kept by every step without a thread cache, as long as there are tags. -/
theorem step (tagged : Tagged s central) (owned : Owned isBlock s central) {move : Move}
    (allowed : s.Allowed move) (uncached : move.Uncached)
    (more : forall t, (s.point t).isWaiting = true -> s.globalTag.toNat + 1 < 2 ^ 32) :
    Tagged (s.step move) (s.after central move) := by
  cases move with
  | alloc t => exact tagged.load owned
  | free t o =>
      have released : Tagged { s with held := s.held.erase o } central :=
        tagged.congr rfl rfl rfl
      exact released.goto rfl (fun _ waits => by cases waits) (fun _ seen => by cases seen)
  | releaseToCache t o => exact absurd uncached id
  | allocFromCache t => exact absurd uncached id
  | returnL1CacheToMaster t count => exact absurd uncached id
  | proceed t => exact tagged.proceed owned (more t) (s.proceeds central t)
  | write o value =>
      have held : o ∈ s.keeps central .client := allowed
      exact tagged.congr rfl rfl (owned.relink_values _ held (fun equal => by cases equal))

end Tagged

/-! ## The counter -/

/-- The counter starts at `count - 1`, and every call of `FreeInterval` adds one
to it when it draws its tag. -/
def Counted (count calls : Nat) (s : AtomicBucket) : Prop :=
  ∃ waiting : List Nat, waiting.Nodup ∧ (forall t, t ∈ waiting <-> (s.point t).isWaiting = true) ∧
    s.globalTag.toNat + waiting.length = count - 1 + calls

namespace Counted

theorem draws (counted : Counted count calls s) (waits : (s.point t).isWaiting = true) :
    s.globalTag.toNat + 1 ≤ count - 1 + calls := by
  rcases counted with ⟨waiting, -, listed, total⟩
  have positive : 0 < waiting.length := List.length_pos_of_mem ((listed t).mpr waits)
  omega

/-- A step by which nobody begins or draws. -/
theorem keep (counted : Counted count calls s) (globalTag : s'.globalTag = s.globalTag)
    (same : forall u, (s'.point u).isWaiting = (s.point u).isWaiting) :
    Counted count calls s' := by
  rcases counted with ⟨waiting, nodup, listed, total⟩
  refine ⟨waiting, nodup, ?_, globalTag ▸ total⟩
  intro u
  rw [same u]
  exact listed u

theorem goto (counted : Counted count calls s) {point : Point}
    (same : point.isWaiting = (s.point t).isWaiting) : Counted count calls (s.goto t point) := by
  have globalTag : (s.goto t point).globalTag = s.globalTag := rfl
  apply counted.keep globalTag
  intro u
  by_cases here : u = t
  · rw [here, goto_point]
    exact same
  · rw [goto_point_of_ne here]

/-- A call of `FreeInterval` begins. -/
theorem free (counted : Counted count calls s) (idle : s.point t = .idle) :
    Counted count (calls + 1) (s.step (.free t o)) := by
  rcases counted with ⟨waiting, nodup, listed, total⟩
  have outside : t ∉ waiting := by
    rw [listed t, idle]
    exact Bool.false_ne_true
  refine ⟨t :: waiting, List.nodup_cons.mpr ⟨outside, nodup⟩, ?_, ?_⟩
  · intro u
    change _ <-> (Function.update s.point t _ u).isWaiting = true
    by_cases here : u = t
    · rw [here, Function.update_self]
      exact ⟨fun _ => rfl, fun _ => List.mem_cons_self⟩
    · rw [Function.update_of_ne here, List.mem_cons, listed u]
      exact ⟨fun member => member.resolve_left here, Or.inr⟩
  · change s.globalTag.toNat + (waiting.length + 1) = count - 1 + (calls + 1)
    omega

/-- A call of `FreeInterval` draws its tag. -/
theorem draw (counted : Counted count calls s) {chain : Chain}
    (here : s.point t = .freeInterval chain) (more : s.globalTag.toNat + 1 < 2 ^ 32) :
    Counted count calls ({ s with globalTag := s.globalTag + 1 }.goto t
      (.freeTagged chain ⟨s.globalTag, UInt32.ofNat chain.pHead⟩)) := by
  have next : (s.globalTag + 1).toNat = s.globalTag.toNat + 1 := by
    rw [UInt32.toNat_add]
    exact Nat.mod_eq_of_lt more
  rcases counted with ⟨waiting, nodup, listed, total⟩
  have waits : t ∈ waiting := by
    rw [listed t, here]
    rfl
  refine ⟨waiting.erase t, nodup.erase t, ?_, ?_⟩
  · intro u
    rw [nodup.mem_erase_iff, listed u]
    by_cases own : u = t
    · rw [own, goto_point]
      exact ⟨fun both => absurd rfl both.1, fun impossible => by cases impossible⟩
    · rw [goto_point_of_ne own]
      exact ⟨And.right, fun waits => ⟨own, waits⟩⟩
  · change (s.globalTag + 1).toNat + _ = _
    have length := List.length_erase_of_mem waits
    have positive : 0 < waiting.length := List.length_pos_of_mem waits
    omega

/-- A step that changes neither the counter nor whether the thread waits for a tag. -/
theorem pass (counted : Counted count calls s) {point : Point} (globalTag : s'.globalTag = s.globalTag)
    (isPoint : s'.point = s.point) (same : point.isWaiting = (s.point t).isWaiting) :
    Counted count calls (s'.goto t point) := by
  have kept : Counted count calls s' := counted.keep globalTag (fun u => by rw [isPoint])
  exact kept.goto (same.trans (by rw [isPoint]))

theorem proceed (counted : Counted count calls s) (single : (s.point t).Single)
    (bound : count - 1 + calls < 2 ^ 32) (moved : Proceeds s central t s' central') :
    Counted count calls s' := by
  cases moved with
  | idle => exact counted
  | null headValue here => exact counted.pass rfl rfl (by rw [here]; rfl)
  | read headValue here => exact counted.pass rfl rfl (by rw [here]; rfl)
  | pop headValue nextValue here => exact counted.pass rfl rfl (by rw [here]; rfl)
  | reload headValue nextValue here => exact counted.pass rfl rfl (by rw [here]; rfl)
  | linked chain localTag previous here =>
      rw [here] at single
      exact absurd single id
  | link chain localTag previous o todo here =>
      rw [here] at single
      exact absurd single id
  | draw chain here =>
      exact counted.draw here (Nat.lt_of_le_of_lt (counted.draws (by rw [here]; rfl)) bound)
  | load chain nodeValue here => exact counted.pass rfl rfl (by rw [here]; rfl)
  | store chain nodeValue headValue here => exact counted.pass rfl rfl (by rw [here]; rfl)
  | push chain nodeValue headValue here => exact counted.pass rfl rfl (by rw [here]; rfl)
  | retry chain nodeValue headValue here => exact counted.pass rfl rfl (by rw [here]; rfl)

/-- Kept by every step without a thread cache, as long as there are tags. -/
theorem step (counted : Counted count calls s) (tagged : Tagged s central) {move : Move}
    (allowed : s.Allowed move) (uncached : move.Uncached) (bound : count - 1 + calls < 2 ^ 32) :
    Counted count (calls + move.freeIntervalCalls) (s.step move) := by
  cases move with
  | alloc t =>
      have idle : s.point t = .idle := allowed
      exact counted.goto (by rw [idle]; rfl)
  | free t o => exact counted.free allowed.1
  | releaseToCache t o => exact absurd uncached id
  | allocFromCache t => exact absurd uncached id
  | returnL1CacheToMaster t count => exact absurd uncached id
  | proceed t => exact counted.proceed (tagged.single t) bound (s.proceeds [] t)
  | write o value => exact counted

end Counted

/-! ## At the start -/

theorem Initial.counted (initial : Initial elementSize size s) (fits : Fits elementSize size) :
    Counted (size / elementSize) 0 s := by
  refine ⟨[], List.nodup_nil, ?_, ?_⟩
  · intro t
    rw [initial.point t]
    constructor
    · intro member
      cases member
    · intro waits
      cases waits
  · exact initial.counter fits

/-- `Create` has used the tags below the counter. -/
theorem Initial.tagged (initial : Initial elementSize size s) (cut : Cut elementSize size) :
    Tagged s (createdList elementSize size) where
  single := by
    intro t
    rw [initial.point t]
    trivial
  known := by
    have two := cut.count_ge
    have few := cut.fits.count_lt
    have counter := initial.counter cut.fits
    rintro value (listed | ⟨t, seen⟩)
    · have running := (initial.owned cut.fits).linked.ne_stop_of_mem listed
      rw [counter]
      rcases LinkKind.mem_values listed with isHead | ⟨o, member, isLink⟩
      · rw [isHead, initial.head]
        change 0 < _
        omega
      · rcases mem_createdList.mp member with ⟨k, inside, rfl⟩
        rw [isLink, initial.link k inside, createdLink] at running ⊢
        by_cases last : k + 1 < size / elementSize
        · rw [if_pos last]
          change (0 + UInt32.ofNat k).toNat < _
          rw [UInt32.zero_add, UInt32.toNat_ofNat_of_lt' (Nat.lt_trans inside few)]
          omega
        · rw [if_neg last] at running
          exact absurd rfl running
    · rw [initial.point t] at seen
      cases seen
  pending := by
    intro t nodeValue waits
    rw [initial.point t] at waits
    cases waits
  fresh := by
    intro t nodeValue value waits
    rw [initial.point t] at waits
    cases waits
  distinct := by
    intro t u nodeValue otherValue _ waits
    rw [initial.point t] at waits
    cases waits

end AtomicBucket

end SmMalloc
