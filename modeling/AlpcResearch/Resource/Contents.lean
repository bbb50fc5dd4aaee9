import Mathlib.Algebra.Group.Nat.Defs
import Mathlib.Tactic.Common

/-!
# Contents of memory blocks

The bytes of a block by offset, the parts a program reads and overwrites, and
little-endian numbers in them. Bounds are not part of the contents: the owner
of a block keeps its size and checks accesses against it.
-/

namespace Resource

abbrev Contents := Nat → UInt8

namespace Contents

variable {c d : Contents} {off len i : Nat} {bs : List UInt8}

def slice (c : Contents) (off len : Nat) : List UInt8 := (List.range len).map fun i => c (off + i)

/-- `bs` laid over the bytes from `off` on. -/
def write (c : Contents) (off : Nat) (bs : List UInt8) : Contents := fun i =>
  if off ≤ i ∧ i < off + bs.length then bs.getD (i - off) 0 else c i

def zero (c : Contents) (off len : Nat) : Contents := fun i =>
  if off ≤ i ∧ i < off + len then 0 else c i

@[simp] theorem length_slice : (c.slice off len).length = len := by simp [slice]

theorem getD_slice (h : i < len) : (c.slice off len).getD i 0 = c (off + i) := by
  simp [slice, List.getD, h]

theorem write_below (h : i < off) : c.write off bs i = c i := by
  simp [write, Nat.not_le_of_lt h]

theorem write_above (h : off + bs.length ≤ i) : c.write off bs i = c i := by
  simp [write, Nat.not_lt_of_le h]

theorem write_at (h : i < bs.length) : c.write off bs (off + i) = bs.getD i 0 := by
  simp [write, h]

theorem slice_congr (h : ∀ i, i < len → c (off + i) = d (off + i)) :
    c.slice off len = d.slice off len := by
  simp only [slice]
  exact List.map_congr_left fun i hi => h i (List.mem_range.mp hi)

theorem slice_write_self : (c.write off bs).slice off bs.length = bs := by
  apply List.ext_getElem (by simp)
  intro i hi _
  simp only [length_slice] at hi
  simp [slice, write_at hi, hi]

theorem slice_write_of_length (h : bs.length = n) : (c.write off bs).slice off n = bs := by
  subst h
  exact slice_write_self

theorem slice_write_zero (h : off + len ≤ bs.length) :
    (c.write 0 bs).slice off len = (bs.drop off).take len := by
  apply List.ext_getElem
  · simp; omega
  intro i hi _
  simp only [length_slice] at hi
  have hb : off + i < bs.length := by omega
  have h : c.write 0 bs (0 + (off + i)) = bs.getD (off + i) 0 := write_at hb
  simp only [Nat.zero_add] at h
  simp [slice, h, hb]

theorem slice_write_front (h : bs.length ≤ off + len) : (c.write 0 bs).slice off len =
    bs.drop off ++ (c.slice off len).drop (bs.drop off).length := by
  apply List.ext_getElem
  · simp; omega
  intro i hi _
  simp only [length_slice] at hi
  by_cases hb : off + i < bs.length
  · simp [slice, write, hb, show i < bs.length - off by omega]
  · have hat : bs.length - off + (i - (bs.length - off)) = i := by omega
    simp [slice, write, List.getElem_append, hb, show ¬ i < bs.length - off by omega, hat]

theorem slice_write_over : (c.write 0 bs).slice off len =
    (bs.drop off).take len ++ (c.slice off len).drop (bs.drop off).length := by
  rcases Nat.le_total (off + len) bs.length with h | h
  · have hlen : (c.slice off len).length ≤ (bs.drop off).length := by simp; omega
    rw [slice_write_zero h, List.drop_of_length_le hlen, List.append_nil]
  · rw [slice_write_front h, List.take_of_length_le (by simp; omega)]

theorem write_slice : c.write off (c.slice off len) = c := by
  funext i
  by_cases hi : off ≤ i ∧ i < off + len
  · have hsub : i - off < len := by omega
    have hread : (c.slice off len).getD (i - off) 0 = c (off + (i - off)) := getD_slice hsub
    rw [Nat.add_sub_cancel' hi.1] at hread
    simpa [write, hi] using hread
  · simp [write, hi]

theorem slice_append (c : Contents) (off m n : Nat) :
    c.slice off (m + n) = c.slice off m ++ c.slice (off + m) n := by
  simp only [slice, List.range_add, List.map_append, List.map_map]
  congr 1
  exact List.map_congr_left fun i _ => by simp [Nat.add_assoc]

theorem slice_write_disjoint (h : off + len ≤ start ∨ start + bs.length ≤ off) :
    (c.write start bs).slice off len = c.slice off len := by
  refine slice_congr fun i hi => ?_
  rcases h with h | h
  · exact write_below (by omega)
  · exact write_above (by omega)

theorem slice_of_zeros (h : ∀ i, off ≤ i → i < off + len → c i = 0) :
    c.slice off len = List.replicate len 0 := by
  refine List.ext_getElem (by simp) fun i hi _ => ?_
  simp only [length_slice] at hi
  simp [slice, h (off + i) (by omega) (by omega)]

theorem zero_inside (h : start ≤ i ∧ i < start + n) : c.zero start n i = 0 := by
  simp [zero, h]

theorem slice_zero_inside (hlo : start ≤ off) (hhi : off + len ≤ start + n) :
    (c.zero start n).slice off len = List.replicate len 0 :=
  slice_of_zeros fun _ _ _ => zero_inside (by omega)

theorem zero_outside (h : i < start ∨ start + n ≤ i) : c.zero start n i = c i := by
  have hout : ¬ (start ≤ i ∧ i < start + n) := by omega
  simp [zero, hout]

theorem write_zeros (h : ∀ i, start ≤ i → i < start + n → c i = 0) :
    c.write start (List.replicate n 0) = c := by
  funext i
  by_cases hi : start ≤ i ∧ i < start + n
  · have hsub : i - start < n := by omega
    simp [write, hi, hsub, h i hi.1 hi.2]
  · simp [write, hi]

theorem slice_slice (h : off + len ≤ n) :
    ((c.slice start n).drop off).take len = c.slice (start + off) len := by
  apply List.ext_getElem
  · simp; omega
  intro i hi _
  simp [slice, Nat.add_assoc]

end Contents

-- ---------------------------------------------------------------------------
-- Little-endian numbers
-- ---------------------------------------------------------------------------

def leNat : List UInt8 → Nat
  | [] => 0
  | b :: bs => b.toNat + 256 * leNat bs

def leBytes : Nat → Nat → List UInt8
  | 0, _ => []
  | width + 1, v => UInt8.ofNat v :: leBytes width (v / 256)

@[simp] theorem length_leBytes : (leBytes width v).length = width := by
  induction width generalizing v with
  | zero => rfl
  | succ width ih => simp [leBytes, ih]

theorem leNat_leBytes : leNat (leBytes width v) = v % 256 ^ width := by
  induction width generalizing v with
  | zero => simp [leBytes, leNat, Nat.mod_one]
  | succ width ih =>
    have hpow : 256 ^ (width + 1) = 256 * 256 ^ width := Nat.pow_succ'
    simp only [leBytes, leNat, ih, UInt8.toNat_ofNat', hpow, Nat.mod_mul]

@[simp] theorem leNat_replicate : leNat (List.replicate n 0) = 0 := by
  induction n with
  | zero => rfl
  | succ n ih => simp [List.replicate_succ, leNat, ih]

theorem leNat_lt (bs : List UInt8) : leNat bs < 256 ^ bs.length := by
  induction bs with
  | nil => simp [leNat]
  | cons b bs ih =>
    have hb : b.toNat < 256 := b.toNat_lt
    simp only [leNat, List.length_cons, Nat.pow_succ']
    omega

theorem leBytes_leNat (bs : List UInt8) : leBytes bs.length (leNat bs) = bs := by
  induction bs with
  | nil => rfl
  | cons b bs ih =>
    have hb : b.toNat < 256 := b.toNat_lt
    have hhead : UInt8.ofNat (b.toNat + 256 * leNat bs) = b := by
      apply UInt8.toNat_inj.mp
      rw [UInt8.toNat_ofNat']
      omega
    have htail : (b.toNat + 256 * leNat bs) / 256 = leNat bs := by omega
    simp only [leNat, List.length_cons, leBytes, hhead, htail, ih]

end Resource
