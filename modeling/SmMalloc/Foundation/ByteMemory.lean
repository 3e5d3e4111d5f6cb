import Mathlib.Data.Nat.ModEq
import Mathlib.Tactic.Ring

namespace Foundation

/-!
# Byte-addressed memory with little-endian words

A memory is a total map from addresses to bytes.  Multi-byte words are read
and written little-endian, and a block move copies from the memory as it was
before the move, so that overlapping ranges need no special treatment.

The frame laws come first and carry most of the weight: a read depends only
on the bytes in its range, and a write or a move changes only bytes in its
range.  Everything else about words follows from one round-trip law.
-/

/-- A memory gives every address its byte. -/
abbrev Memory := Nat -> UInt8

namespace Memory

/-- The little-endian number stored in the `n` bytes at `a`. -/
def read (m : Memory) (a : Nat) : Nat -> Nat
  | 0 => 0
  | n + 1 => (m a).toNat + 256 * read m (a + 1) n

/-- Store the low `n` bytes of `v` at `a`. -/
def write (m : Memory) (a n v : Nat) : Memory :=
  fun x => if a ≤ x ∧ x < a + n then UInt8.ofNat (v / 256 ^ (x - a)) else m x

/-- Move `n` bytes from `source` to `target`. -/
def move (m : Memory) (target source n : Nat) : Memory :=
  fun x => if target ≤ x ∧ x < target + n then m (source + (x - target)) else m x

/-- Store one byte. -/
def poke (m : Memory) (a : Nat) (v : UInt8) : Memory :=
  fun x => if x = a then v else m x

/-- The `n` bytes at `a`. -/
def bytes (m : Memory) (a n : Nat) : List UInt8 := (List.range n).map (fun k => m (a + k))

/-! ## What an access leaves alone -/

theorem write_outside {m : Memory} {a n v x : Nat} (outside : x < a ∨ a + n ≤ x) :
    m.write a n v x = m x := by
  have missed : ¬ (a ≤ x ∧ x < a + n) := by omega
  simp only [write, if_neg missed]

theorem move_outside {m : Memory} {target source n x : Nat}
    (outside : x < target ∨ target + n ≤ x) : m.move target source n x = m x := by
  have missed : ¬ (target ≤ x ∧ x < target + n) := by omega
  simp only [move, if_neg missed]

theorem move_inside {m : Memory} {target source n k : Nat} (inside : k < n) :
    m.move target source n (target + k) = m (source + k) := by
  have hit : target ≤ target + k ∧ target + k < target + n := by omega
  simp only [move, if_pos hit, Nat.add_sub_cancel_left]

theorem poke_outside {m : Memory} {a x : Nat} {v : UInt8} (outside : x ≠ a) :
    m.poke a v x = m x := by
  simp only [poke, if_neg outside]

/-- A read depends only on the bytes in its range. -/
theorem read_congr {m m' : Memory} {n : Nat} : forall {a : Nat},
    (forall k, k < n -> m' (a + k) = m (a + k)) -> m'.read a n = m.read a n := by
  induction n with
  | zero => intro a _; rfl
  | succ n ih =>
      intro a agree
      have first : m' a = m a := by simpa only [Nat.add_zero] using agree 0 (Nat.succ_pos n)
      have rest : m'.read (a + 1) n = m.read (a + 1) n := by
        apply ih
        intro k bound
        have shifted := agree (k + 1) (Nat.succ_lt_succ bound)
        rwa [Nat.add_comm k 1, ← Nat.add_assoc] at shifted
      simp only [read, first, rest]

theorem read_write_apart {m : Memory} {a n v b k : Nat} (apart : b + k ≤ a ∨ a + n ≤ b) :
    (m.write a n v).read b k = m.read b k := by
  apply read_congr
  intro j bound
  exact write_outside (by omega)

/-! ## Ranges of bytes -/

@[simp] theorem length_bytes (m : Memory) (a n : Nat) : (m.bytes a n).length = n := by
  rw [bytes, List.length_map, List.length_range]

/-- The first bytes of a range are a range. -/
theorem take_bytes (m : Memory) {a n k : Nat} (few : k ≤ n) :
    (m.bytes a n).take k = m.bytes a k := by
  rw [bytes, ← List.map_take, List.take_range, Nat.min_eq_left few, bytes]

/-- Equal bytes, there or at another place. -/
theorem bytes_shift {m m' : Memory} {a b n : Nat}
    (agree : forall k, k < n -> m' (b + k) = m (a + k)) : m'.bytes b n = m.bytes a n :=
  List.map_congr_left (fun k inside => agree k (List.mem_range.mp inside))

theorem bytes_poke (m : Memory) (a n k : Nat) (v : UInt8) :
    (m.poke (a + k) v).bytes a n = (m.bytes a n).set k v := by
  apply List.ext_getElem
  · rw [List.length_set, length_bytes, length_bytes]
  · intro j inside _
    rw [List.getElem_set]
    simp only [bytes, List.getElem_map, List.getElem_range, poke]
    by_cases here : k = j
    · rw [if_pos here, if_pos (congrArg (a + ·) here.symm)]
    · rw [if_neg here, if_neg (fun same => here (Nat.add_left_cancel same).symm)]

/-! ## Words -/

/-- Bytes cut from a number read back as that number, modulo its width. -/
theorem read_of_digits (m : Memory) (n : Nat) : forall (a v : Nat),
    (forall k, k < n -> m (a + k) = UInt8.ofNat (v / 256 ^ k)) -> m.read a n = v % 256 ^ n := by
  induction n with
  | zero => intro a v _; simp only [read, Nat.pow_zero, Nat.mod_one]
  | succ n ih =>
      intro a v digits
      have first : (m a).toNat = v % 256 := by
        have digit := digits 0 (Nat.succ_pos n)
        simp only [Nat.add_zero, Nat.pow_zero, Nat.div_one] at digit
        rw [digit, UInt8.toNat_ofNat']
      have rest : m.read (a + 1) n = (v / 256) % 256 ^ n := by
        apply ih
        intro k bound
        have digit := digits (k + 1) (Nat.succ_lt_succ bound)
        rw [Nat.add_comm k 1, ← Nat.add_assoc] at digit
        rw [digit, Nat.div_div_eq_div_mul, Nat.pow_add, Nat.pow_one]
      rw [read, first, rest, Nat.pow_succ, Nat.mul_comm (256 ^ n) 256, Nat.mod_mul]

/-- Reading back what was stored, cut to the width of the store. -/
theorem read_write_same (m : Memory) (a n v : Nat) : (m.write a n v).read a n = v % 256 ^ n := by
  apply read_of_digits
  intro k bound
  have hit : a ≤ a + k ∧ a + k < a + n := by omega
  simp only [write, if_pos hit, Nat.add_sub_cancel_left]

end Memory

end Foundation
