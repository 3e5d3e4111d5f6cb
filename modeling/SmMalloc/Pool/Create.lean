import SmMalloc.Pool.Invariant

namespace SmMalloc

open Foundation

/-!
# The lists that Create builds

`Create` threads the blocks of a bucket in order of their offsets.  It looks
one block ahead for the end of the bucket and stores the first link without
looking, so that a bucket always gets at least one block on its list, whether
or not a block fits.  The links carry the tags `0`, `1`, `2`, ... .
-/

variable {scheme : Partitioning} {m : Machine} {w : World} {a i : Nat}

/-- The number of blocks that `Create` puts on the list. -/
def createdCount (elementSize size : Nat) : Nat := max 1 (size / elementSize)

theorem createdCount_pos (elementSize size : Nat) : 0 < createdCount elementSize size :=
  Nat.le_max_left 1 _

/-- The link of block `k`, when the blocks from `first` on are threaded from `tag` on. -/
def createdLink (elementSize count first k : Nat) (tag : UInt32) : TaggedIndex :=
  if k + 1 < count then ⟨tag + UInt32.ofNat (k - first), UInt32.ofNat ((k + 1) * elementSize)⟩
  else TaggedIndex.invalid

theorem tag_step (tag : UInt32) (n : Nat) :
    tag + 1 + UInt32.ofNat n = tag + UInt32.ofNat (n + 1) := by
  have one : UInt32.ofNat 1 = 1 := rfl
  rw [UInt32.ofNat_add, one, UInt32.add_assoc, UInt32.add_comm 1]

theorem createdLink_step {elementSize count k j : Nat} (tag : UInt32) (above : k < j) :
    createdLink elementSize count (k + 1) j (tag + 1) = createdLink elementSize count k j tag := by
  have step : j - k = j - (k + 1) + 1 := by omega
  rw [createdLink, createdLink, tag_step, ← step]

/-- The look-ahead of the loop finds the last block. -/
theorem lookahead {elementSize size k : Nat} (positive : 0 < elementSize)
    (inside : k < createdCount elementSize size) :
    (k + 1) * elementSize + elementSize ≤ size <-> k + 1 < createdCount elementSize size := by
  unfold createdCount at inside ⊢
  have fits : (k + 1) * elementSize + elementSize ≤ size <-> k + 1 + 1 ≤ size / elementSize := by
    rw [Nat.le_div_iff_mul_le positive, Nat.succ_mul (k + 1)]
  rw [fits]
  omega

/-- The blocks on the list start within the bucket, with room for a link. -/
theorem created_inside {elementSize size k : Nat} (elementMin : 8 ≤ elementSize)
    (sizeMin : 8 ≤ size) (inside : k < createdCount elementSize size) :
    k * elementSize + 8 ≤ size := by
  unfold createdCount at inside
  by_cases first : k = 0
  · subst first
    omega
  · have fits := cell_end_le (by omega : k < size / elementSize)
    omega

/-- The loop of `Create` from block `k` on. -/
theorem createLoop_spec (pData size : Nat) {elementSize : Nat} (elementMin : 8 ≤ elementSize) :
    forall (remaining fuel k : Nat) (tag : UInt32) (mem : Memory),
    k + remaining + 1 = createdCount elementSize size -> remaining < fuel ->
    let built := PoolBucket.createLoop pData (pData + size) elementSize fuel
      (pData + k * elementSize) tag mem
    built.2 = tag + UInt32.ofNat remaining ∧
      (forall j, k ≤ j -> j < createdCount elementSize size ->
        TaggedIndex.load built.1 (pData + j * elementSize) =
          createdLink elementSize (createdCount elementSize size) k j tag) ∧
      forall x, (forall j, k ≤ j -> j < createdCount elementSize size ->
        x < pData + j * elementSize ∨ pData + j * elementSize + 8 ≤ x) -> built.1 x = mem x := by
  intro remaining
  induction remaining with
  | zero =>
      intro fuel k tag mem last enough
      cases fuel with
      | zero => omega
      | succ fuel =>
          have stop : ¬ pData + k * elementSize + elementSize + elementSize ≤ pData + size := by
            intro more
            have ahead := (lookahead (by omega) (by omega : k < createdCount elementSize size)).mp
              (by rw [Nat.succ_mul]; omega)
            omega
          simp only [PoolBucket.createLoop, if_neg stop]
          refine ⟨(UInt32.add_zero tag).symm, ?_, ?_⟩
          · intro j low high
            have same : j = k := by omega
            subst same
            rw [TaggedIndex.load_store, createdLink, if_neg (by omega)]
          · intro x outside
            exact TaggedIndex.store_outside (outside k (Nat.le_refl k) (by omega))
  | succ remaining ih =>
      intro fuel k tag mem last enough
      cases fuel with
      | zero => omega
      | succ fuel =>
          have more : pData + k * elementSize + elementSize + elementSize ≤ pData + size := by
            have ahead := (lookahead (by omega) (by omega : k < createdCount elementSize size)).mpr
              (by omega)
            rw [Nat.succ_mul] at ahead
            omega
          have next : pData + k * elementSize + elementSize = pData + (k + 1) * elementSize := by
            rw [Nat.succ_mul]
            omega
          have offset : pData + (k + 1) * elementSize - pData = (k + 1) * elementSize := by omega
          simp only [PoolBucket.createLoop, if_pos more]
          rw [next, offset]
          rcases ih fuel (k + 1) (tag + 1) (TaggedIndex.store mem (pData + k * elementSize)
            ⟨tag, UInt32.ofNat ((k + 1) * elementSize)⟩) (by omega) (by omega) with
            ⟨tags, links, frame⟩
          refine ⟨tags.trans (tag_step tag remaining), ?_, ?_⟩
          · intro j low high
            by_cases here : j = k
            · subst here
              -- the later stores do not reach back to this block
              have kept := TaggedIndex.load_congr (a := pData + j * elementSize) (fun x small =>
                frame (pData + j * elementSize + x) (fun j' low' high' => by
                  have above := cell_le low' elementSize
                  omega))
              rw [kept, TaggedIndex.load_store, createdLink, if_pos (by omega), Nat.sub_self]
              have zero : UInt32.ofNat 0 = 0 := rfl
              rw [zero, UInt32.add_zero]
            · rw [links j (by omega) high]
              exact createdLink_step tag (by omega)
          · intro x outside
            have old := frame x (fun j low high => outside j (by omega) high)
            exact old.trans (TaggedIndex.store_outside (outside k (Nat.le_refl k) (by omega)))

/-- The list that `Create` leaves, from block `k` on. -/
theorem createdFrom_linked {next : Nat -> TaggedIndex} {elementSize count : Nat}
    (links : forall k, k < count ->
      next (k * elementSize) = createdLink elementSize count 0 k 0)
    (small : forall k, k < count -> k * elementSize + 1 < 2 ^ 32) :
    forall (remaining k : Nat) (value : TaggedIndex), k + remaining + 1 = count ->
    value.offset.toNat = k * elementSize ->
    TaggedIndex.kind.Linked next value
      ((List.range' k (remaining + 1)).map (fun j => j * elementSize)) := by
  intro remaining
  have running : forall (k : Nat) (value : TaggedIndex), k < count ->
      value.offset.toNat = k * elementSize -> value ≠ TaggedIndex.invalid := by
    rintro k value inside named rfl
    have bound := small k inside
    have allBits : TaggedIndex.invalid.offset.toNat = 2 ^ 32 - 1 := by decide
    omega
  induction remaining with
  | zero =>
      intro k value last named
      refine ⟨running k value (by omega) named, named, ?_⟩
      rw [links k (by omega), createdLink, if_neg (by omega)]
      rfl
  | succ remaining ih =>
      intro k value last named
      refine ⟨running k value (by omega) named, named, ?_⟩
      apply ih (k + 1) _ (by omega)
      rw [links k (by omega), createdLink, if_pos (by omega)]
      have bound := small (k + 1) (by omega)
      exact (UInt32.toNat_ofNat').trans (Nat.mod_eq_of_lt (by omega))

theorem created_linked {next : Nat -> TaggedIndex} {elementSize : Nat} (size : Nat)
    (links : forall k, k < createdCount elementSize size ->
      next (k * elementSize) = createdLink elementSize (createdCount elementSize size) 0 k 0)
    (small : forall k, k < createdCount elementSize size -> k * elementSize + 1 < 2 ^ 32) :
    TaggedIndex.kind.Linked next ⟨0, 0⟩
      ((List.range (createdCount elementSize size)).map (fun k => k * elementSize)) := by
  have positive := createdCount_pos elementSize size
  have linked := createdFrom_linked links small (createdCount elementSize size - 1) 0 ⟨0, 0⟩
    (by omega) (Nat.zero_mul _).symm
  rw [List.range_eq_range']
  rwa [Nat.sub_add_cancel positive] at linked

/-! ## PoolBucket::Create -/

/-- A bucket as `Create` leaves it. -/
structure Created (m : Machine) (a i elementSize : Nat) : Prop where
  head : (m.bucket a i).head = ⟨0, 0⟩
  globalTag : (m.bucket a i).globalTag = UInt32.ofNat
    (createdCount elementSize ((m.bucket a i).pBufferEnd - (m.bucket a i).pData) - 1)
  links : forall k,
    k < createdCount elementSize ((m.bucket a i).pBufferEnd - (m.bucket a i).pData) ->
    linksAt m.mem (m.bucket a i).pData (k * elementSize) = createdLink elementSize
      (createdCount elementSize ((m.bucket a i).pBufferEnd - (m.bucket a i).pData)) 0 k 0

/-- `Create` writes within the bucket and sets the head and the tag counter. -/
theorem create_spec {elementSize : Nat} (elementMin : 8 ≤ elementSize)
    (room : (m.bucket a i).pData + 8 ≤ (m.bucket a i).pBufferEnd) :
    let m' := PoolBucket.create m a i elementSize
    Created m' a i elementSize ∧
      (m'.bucket a i).pData = (m.bucket a i).pData ∧
      (m'.bucket a i).pBufferEnd = (m.bucket a i).pBufferEnd ∧
      forall x, x < (m.bucket a i).pData ∨ (m.bucket a i).pBufferEnd ≤ x ->
        m'.mem x = m.mem x := by
  intro m'
  obtain ⟨size, isSize⟩ : ∃ size, (m.bucket a i).pBufferEnd = (m.bucket a i).pData + size :=
    Nat.exists_eq_add_of_le (by omega)
  have difference : (m.bucket a i).pData + size - (m.bucket a i).pData = size := by omega
  have positive := createdCount_pos elementSize size
  have enough : createdCount elementSize size - 1 < size + 1 := by
    have quotient := Nat.div_le_self size elementSize
    unfold createdCount
    omega
  rcases createLoop_spec (m.bucket a i).pData size elementMin
    (createdCount elementSize size - 1) (size + 1) 0 0 m.mem (by omega) enough with
    ⟨tags, links, frame⟩
  simp only [Nat.zero_mul, Nat.add_zero] at tags links frame
  have slot : m'.bucket a i = { m.bucket a i with
      head := ⟨0, 0⟩
      globalTag := (PoolBucket.createLoop (m.bucket a i).pData (m.bucket a i).pBufferEnd
        elementSize ((m.bucket a i).pBufferEnd - (m.bucket a i).pData + 1) (m.bucket a i).pData 0
        m.mem).2 } := Machine.setBucket_bucket_same _ a i _
  have mem : m'.mem = (PoolBucket.createLoop (m.bucket a i).pData (m.bucket a i).pBufferEnd
      elementSize ((m.bucket a i).pBufferEnd - (m.bucket a i).pData + 1) (m.bucket a i).pData 0
      m.mem).1 := rfl
  rw [isSize, difference] at slot mem
  refine ⟨⟨?_, ?_, ?_⟩, ?_, ?_, ?_⟩
  · rw [slot]
  · rw [slot]
    simp only [isSize, difference]
    rw [tags]
    exact UInt32.zero_add _
  · intro k inside
    rw [slot] at inside ⊢
    simp only [isSize, difference] at inside ⊢
    rw [linksAt, mem]
    exact links k (Nat.zero_le k) inside
  · rw [slot]
  · rw [slot, isSize]
  · intro x outside
    rw [mem]
    apply frame
    intro j _ inside
    have within := created_inside elementMin (by omega : 8 ≤ size) inside
    omega

end SmMalloc
