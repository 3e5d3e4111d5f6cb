import Mathlib.Data.List.Nodup
import Mathlib.Data.List.Perm.Basic
import Mathlib.Data.Set.Basic

namespace Foundation

/-!
# Custody of items among holders

A fixed supply of items is divided among holders, each of which keeps its
items in a list.  `Custody` says that the division is exact: every item of
the supply sits with exactly one holder and at exactly one position there,
and nothing outside the supply is held at all.

The holders may be infinitely many; only their lists are finite.  A step of a
system that hands items from one holder to another is covered by `transfer`,
whatever the order of the two lists becomes.  Items that enter or leave the
supply are covered by `acquire` and `release`.
-/

variable {Holder Item : Type*}

/-- The holders' lists divide the supply exactly. -/
structure Custody (owns : Holder -> List Item) (supply : Item -> Prop) : Prop where
  nodup : forall holder, (owns holder).Nodup
  disjoint : forall first second, first ≠ second -> List.Disjoint (owns first) (owns second)
  covers : forall item, supply item <-> ∃ holder, item ∈ owns holder

namespace Custody

variable {owns owns' : Holder -> List Item} {supply supply' : Item -> Prop}

/-! ## Where an item is -/

theorem supplied (custody : Custody owns supply) (holder : Holder) {item : Item}
    (member : item ∈ owns holder) : supply item :=
  (custody.covers item).mpr ⟨holder, member⟩

theorem holder_unique (custody : Custody owns supply) {first second : Holder} {item : Item}
    (inFirst : item ∈ owns first) (inSecond : item ∈ owns second) : first = second := by
  by_contra different
  exact custody.disjoint first second different inFirst inSecond

/-- Every supplied item occupies exactly one position of exactly one holder. -/
theorem existsUnique_position (custody : Custody owns supply) {item : Item}
    (inSupply : supply item) :
    ∃! place : Holder × Nat, (owns place.1)[place.2]? = some item := by
  rcases (custody.covers item).mp inSupply with ⟨holder, member⟩
  rcases List.mem_iff_getElem?.mp member with ⟨position, found⟩
  refine ⟨(holder, position), found, ?_⟩
  rintro ⟨other, index⟩ (elsewhere : (owns other)[index]? = some item)
  have same : other = holder :=
    custody.holder_unique (List.mem_of_getElem? elsewhere) member
  subst same
  have bound : index < (owns other).length := (List.getElem?_eq_some_iff.mp elsewhere).1
  have equal : index = position :=
    (List.getElem?_inj bound (custody.nodup other)).mp (elsewhere.trans found.symm)
  rw [equal]

/-- Two holders that keep distinct lists keep them without a common item. -/
theorem append_nodup (custody : Custody owns supply) {first second : Holder}
    (different : first ≠ second) : (owns first ++ owns second).Nodup :=
  List.nodup_append'.mpr
    ⟨custody.nodup first, custody.nodup second, custody.disjoint first second different⟩

/-- One holder has everything. -/
theorem of_single (holder : Holder) (nodup : (owns holder).Nodup)
    (others : forall other, other ≠ holder -> owns other = [])
    (lists : forall item, item ∈ owns holder <-> supply item) : Custody owns supply := by
  have only : forall other item, item ∈ owns other -> other = holder := by
    intro other item member
    by_contra different
    rw [others other different] at member
    cases member
  refine ⟨?_, ?_, ?_⟩
  · intro other
    by_cases same : other = holder
    · subst same; exact nodup
    · rw [others other same]; exact List.nodup_nil
  · intro first second different item inFirst inSecond
    exact different ((only first item inFirst).trans (only second item inSecond).symm)
  · intro item
    rw [← lists item]
    constructor
    · intro member
      exact ⟨holder, member⟩
    · rintro ⟨other, member⟩
      exact only other item member ▸ member

/-- Holders may be divided further, as long as their items are. -/
theorem refine {Part : Type*} {keeps : Part -> List Item} (custody : Custody owns supply)
    (part : Part -> Holder) (nodup : forall place, (keeps place).Nodup)
    (within : forall place item, item ∈ keeps place -> item ∈ owns (part place))
    (apart : forall first second, first ≠ second -> part first = part second ->
      List.Disjoint (keeps first) (keeps second))
    (divided : forall holder item, item ∈ owns holder -> ∃ place, item ∈ keeps place) :
    Custody keeps supply where
  nodup := nodup
  disjoint := by
    intro first second different
    by_cases same : part first = part second
    · exact apart first second different same
    · intro item inFirst inSecond
      exact custody.disjoint _ _ same (within first item inFirst) (within second item inSecond)
  covers := by
    intro item
    rw [custody.covers item]
    constructor
    · rintro ⟨holder, member⟩
      exact divided holder item member
    · rintro ⟨place, member⟩
      exact ⟨part place, within place item member⟩

/-! ## Rearrangements that keep the supply -/

/-- The same division under other names, when those without a new name have nothing. -/
theorem relabel {Other : Type*} {keeps : Other -> List Item} (custody : Custody owns supply)
    {label : Other -> Holder} (injective : Function.Injective label)
    (same : forall other, keeps other = owns (label other))
    (unnamed : forall holder, (forall other, label other ≠ holder) -> owns holder = []) :
    Custody keeps supply where
  nodup := by
    intro other
    rw [same other]
    exact custody.nodup _
  disjoint := by
    intro first second different
    rw [same first, same second]
    exact custody.disjoint _ _ (fun equal => different (injective equal))
  covers := by
    intro item
    rw [custody.covers item]
    constructor
    · rintro ⟨holder, member⟩
      by_cases named : ∃ other, label other = holder
      · rcases named with ⟨other, rfl⟩
        exact ⟨other, same other ▸ member⟩
      · rw [unnamed holder (fun other equal => named ⟨other, equal⟩)] at member
        cases member
    · rintro ⟨other, member⟩
      exact ⟨label other, same other ▸ member⟩

theorem congr (custody : Custody owns supply) (same : forall holder, owns' holder = owns holder) :
    Custody owns' supply := by
  have equal : owns' = owns := funext same
  rwa [equal]

/-- One holder rearranges its own list. -/
theorem reorder (custody : Custody owns supply) (holder : Holder)
    (perm : (owns' holder).Perm (owns holder))
    (same : forall other, other ≠ holder -> owns' other = owns other) : Custody owns' supply := by
  have member : forall other item, item ∈ owns' other <-> item ∈ owns other := by
    intro other item
    by_cases equal : other = holder
    · subst equal; exact perm.mem_iff
    · rw [same other equal]
  refine ⟨?_, ?_, ?_⟩
  · intro other
    by_cases equal : other = holder
    · subst equal; exact perm.nodup_iff.mpr (custody.nodup other)
    · rw [same other equal]; exact custody.nodup other
  · intro first second different item inFirst inSecond
    exact custody.disjoint first second different
      ((member first item).mp inFirst) ((member second item).mp inSecond)
  · intro item
    rw [custody.covers item]
    exact exists_congr (fun other => (member other item).symm)

/-- After an exchange between two holders, an item was with the same holder
before, unless it is with the pair and has been there all along. -/
theorem origin {first second other : Holder} {item : Item}
    (perm : (owns' first ++ owns' second).Perm (owns first ++ owns second))
    (same : forall other, other ≠ first -> other ≠ second -> owns' other = owns other)
    (member : item ∈ owns' other) :
    ∃ source, item ∈ owns source ∧
      (source = other ∨ (other = first ∨ other = second) ∧ (source = first ∨ source = second)) := by
  by_cases isPair : other = first ∨ other = second
  · have held : item ∈ owns' first ++ owns' second := by
      rcases isPair with rfl | rfl
      · exact List.mem_append_left _ member
      · exact List.mem_append_right _ member
    rcases List.mem_append.mp (perm.mem_iff.mp held) with inFirst | inSecond
    · exact ⟨first, inFirst, Or.inr ⟨isPair, Or.inl rfl⟩⟩
    · exact ⟨second, inSecond, Or.inr ⟨isPair, Or.inr rfl⟩⟩
  · rcases not_or.mp isPair with ⟨notFirst, notSecond⟩
    rw [same other notFirst notSecond] at member
    exact ⟨other, member, Or.inl rfl⟩

/-- Two holders exchange items; together they still keep the same ones. -/
theorem transfer (custody : Custody owns supply) (first second : Holder)
    (different : first ≠ second)
    (perm : (owns' first ++ owns' second).Perm (owns first ++ owns second))
    (same : forall other, other ≠ first -> other ≠ second -> owns' other = owns other) :
    Custody owns' supply := by
  have both : (owns' first ++ owns' second).Nodup :=
    perm.nodup_iff.mpr (custody.append_nodup different)
  rcases List.nodup_append'.mp both with ⟨firstNodup, secondNodup, apart⟩
  refine ⟨?_, ?_, ?_⟩
  · intro other
    by_cases isFirst : other = first
    · subst isFirst; exact firstNodup
    by_cases isSecond : other = second
    · subst isSecond; exact secondNodup
    rw [same other isFirst isSecond]
    exact custody.nodup other
  · intro left right unequal item inLeft inRight
    rcases origin perm same inLeft with ⟨source, before, fromLeft⟩
    rcases origin perm same inRight with ⟨source', before', fromRight⟩
    have one : source = source' := custody.holder_unique before before'
    subst one
    -- both sides of the pair, or one holder
    have pair : (left = first ∨ left = second) ∧ (right = first ∨ right = second) := by
      rcases fromLeft with rfl | ⟨leftPair, sourcePair⟩
      · rcases fromRight with rfl | ⟨rightPair, sourcePair⟩
        · exact absurd rfl unequal
        · exact ⟨sourcePair, rightPair⟩
      · rcases fromRight with rfl | ⟨rightPair, -⟩
        · exact ⟨leftPair, sourcePair⟩
        · exact ⟨leftPair, rightPair⟩
    rcases pair with ⟨rfl | rfl, rfl | rfl⟩
    · exact unequal rfl
    · exact apart inLeft inRight
    · exact apart inRight inLeft
    · exact unequal rfl
  · intro item
    rw [custody.covers item]
    constructor
    · rintro ⟨other, member⟩
      rcases origin perm.symm (fun third notFirst notSecond =>
        (same third notFirst notSecond).symm) member with ⟨source, held, -⟩
      exact ⟨source, held⟩
    · rintro ⟨other, member⟩
      rcases origin perm same member with ⟨source, held, -⟩
      exact ⟨source, held⟩

/-- When only two holders may have changed, together they still keep the same items. -/
theorem pair_perm (custody : Custody owns supply) (custody' : Custody owns' supply)
    {first second : Holder} (different : first ≠ second)
    (same : forall other, other ≠ first -> other ≠ second -> owns' other = owns other) :
    (owns' first ++ owns' second).Perm (owns first ++ owns second) := by
  have pair : forall {left right : Holder -> List Item}, Custody left supply ->
      Custody right supply ->
      (forall other, other ≠ first -> other ≠ second -> left other = right other) ->
      forall item, item ∈ left first ++ left second -> item ∈ right first ++ right second := by
    intro left right leftCustody rightCustody others item member
    have inSupply : supply item := by
      rcases List.mem_append.mp member with inFirst | inSecond
      · exact leftCustody.supplied first inFirst
      · exact leftCustody.supplied second inSecond
    rcases (rightCustody.covers item).mp inSupply with ⟨holder, held⟩
    by_cases isFirst : holder = first
    · exact List.mem_append_left _ (isFirst ▸ held)
    by_cases isSecond : holder = second
    · exact List.mem_append_right _ (isSecond ▸ held)
    -- a third holder would have had the item all along
    rw [← others holder isFirst isSecond] at held
    rcases List.mem_append.mp member with inFirst | inSecond
    · exact absurd (leftCustody.holder_unique held inFirst) isFirst
    · exact absurd (leftCustody.holder_unique held inSecond) isSecond
  apply (List.perm_ext_iff_of_nodup (custody'.append_nodup different)
    (custody.append_nodup different)).mpr
  intro item
  exact ⟨pair custody' custody same item,
    pair custody custody' (fun other notFirst notSecond => (same other notFirst notSecond).symm)
      item⟩

/-! ## Items that enter or leave the supply -/

/-- A new item enters the supply with one holder. -/
theorem acquire (custody : Custody owns supply) (holder : Holder) {item : Item}
    (fresh : ¬ supply item) (perm : (owns' holder).Perm (item :: owns holder))
    (same : forall other, other ≠ holder -> owns' other = owns other)
    (grown : forall x, supply' x <-> supply x ∨ x = item) : Custody owns' supply' := by
  have absent : forall other, item ∉ owns other :=
    fun other member => fresh (custody.supplied other member)
  have member : forall other x, x ∈ owns' other <-> x ∈ owns other ∨ (other = holder ∧ x = item) := by
    intro other x
    by_cases equal : other = holder
    · subst equal
      rw [perm.mem_iff, List.mem_cons]
      constructor
      · rintro (isItem | old)
        · exact Or.inr ⟨rfl, isItem⟩
        · exact Or.inl old
      · rintro (old | ⟨-, isItem⟩)
        · exact Or.inr old
        · exact Or.inl isItem
    · rw [same other equal]
      simp only [equal, false_and, or_false]
  refine ⟨?_, ?_, ?_⟩
  · intro other
    by_cases equal : other = holder
    · subst equal
      exact perm.nodup_iff.mpr (List.nodup_cons.mpr ⟨absent other, custody.nodup other⟩)
    · rw [same other equal]; exact custody.nodup other
  · intro first second different x inFirst inSecond
    rcases (member first x).mp inFirst with old | ⟨isHolder, isItem⟩
    · rcases (member second x).mp inSecond with alsoOld | ⟨-, isItem⟩
      · exact custody.disjoint first second different old alsoOld
      · exact absent first (isItem ▸ old)
    · rcases (member second x).mp inSecond with old | ⟨isHolder', -⟩
      · exact absent second (isItem ▸ old)
      · exact different (isHolder.trans isHolder'.symm)
  · intro x
    rw [grown x, custody.covers x]
    constructor
    · rintro (⟨other, old⟩ | isItem)
      · exact ⟨other, (member other x).mpr (Or.inl old)⟩
      · exact ⟨holder, (member holder x).mpr (Or.inr ⟨rfl, isItem⟩)⟩
    · rintro ⟨other, held⟩
      rcases (member other x).mp held with old | ⟨-, isItem⟩
      · exact Or.inl ⟨other, old⟩
      · exact Or.inr isItem

/-- One holder gives an item up, and it leaves the supply. -/
theorem release (custody : Custody owns supply) (holder : Holder) (item : Item)
    (perm : (owns holder).Perm (item :: owns' holder))
    (same : forall other, other ≠ holder -> owns' other = owns other)
    (shrunk : forall x, supply' x <-> supply x ∧ x ≠ item) : Custody owns' supply' := by
  have parts : item ∉ owns' holder ∧ (owns' holder).Nodup :=
    List.nodup_cons.mp (perm.nodup_iff.mp (custody.nodup holder))
  have held : item ∈ owns holder := perm.mem_iff.mpr List.mem_cons_self
  have member : forall other x, x ∈ owns' other <-> x ∈ owns other ∧ x ≠ item := by
    intro other x
    by_cases equal : other = holder
    · subst equal
      rw [perm.mem_iff, List.mem_cons]
      constructor
      · intro inNew
        exact ⟨Or.inr inNew, fun isItem => parts.1 (isItem ▸ inNew)⟩
      · rintro ⟨isItem | inNew, notItem⟩
        · exact absurd isItem notItem
        · exact inNew
    · rw [same other equal]
      constructor
      · intro old
        exact ⟨old, fun isItem => equal (custody.holder_unique (isItem ▸ old) held)⟩
      · exact And.left
  refine ⟨?_, ?_, ?_⟩
  · intro other
    by_cases equal : other = holder
    · subst equal; exact parts.2
    · rw [same other equal]; exact custody.nodup other
  · intro first second different x inFirst inSecond
    exact custody.disjoint first second different
      ((member first x).mp inFirst).1 ((member second x).mp inSecond).1
  · intro x
    rw [shrunk x, custody.covers x]
    constructor
    · rintro ⟨⟨other, old⟩, notItem⟩
      exact ⟨other, (member other x).mpr ⟨old, notItem⟩⟩
    · rintro ⟨other, inNew⟩
      have old := (member other x).mp inNew
      exact ⟨⟨other, old.1⟩, old.2⟩

/-! ## Counting -/

/-- When all but three holders are empty, the three lists together list the supply. -/
theorem perm_of_three (custody : Custody owns supply) {first second third : Holder}
    (firstSecond : first ≠ second) (firstThird : first ≠ third) (secondThird : second ≠ third)
    (others : forall other, other ≠ first -> other ≠ second -> other ≠ third -> owns other = [])
    {items : List Item} (nodup : items.Nodup) (lists : forall item, item ∈ items <-> supply item) :
    (owns first ++ owns second ++ owns third).Perm items := by
  have apart : List.Disjoint (owns first ++ owns second) (owns third) := by
    intro item inPair inThird
    rcases List.mem_append.mp inPair with inFirst | inSecond
    · exact custody.disjoint first third firstThird inFirst inThird
    · exact custody.disjoint second third secondThird inSecond inThird
  have joined : (owns first ++ owns second ++ owns third).Nodup :=
    List.nodup_append'.mpr ⟨custody.append_nodup firstSecond, custody.nodup third, apart⟩
  apply (List.perm_ext_iff_of_nodup joined nodup).mpr
  intro item
  rw [lists item, custody.covers item, List.mem_append, List.mem_append]
  constructor
  · rintro ((inFirst | inSecond) | inThird)
    · exact ⟨first, inFirst⟩
    · exact ⟨second, inSecond⟩
    · exact ⟨third, inThird⟩
  · rintro ⟨other, member⟩
    by_cases isFirst : other = first
    · subst isFirst; exact Or.inl (Or.inl member)
    by_cases isSecond : other = second
    · subst isSecond; exact Or.inl (Or.inr member)
    by_cases isThird : other = third
    · subst isThird; exact Or.inr member
    rw [others other isFirst isSecond isThird] at member
    cases member

end Custody

end Foundation
