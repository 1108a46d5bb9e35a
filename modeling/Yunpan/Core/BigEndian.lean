import Mathlib.Algebra.Group.Nat.Defs
import Mathlib.Data.List.Induction

/-!
# Big-endian numbers

A number as bytes of a fixed count, and back.
-/

namespace Yunpan.BigEndian

def read (bytes : List UInt8) : ℕ := bytes.foldl (fun acc b => 256 * acc + b.toNat) 0

def write (width n : ℕ) : List UInt8 :=
  (List.range width).reverse.map fun i => UInt8.ofNat (n / 256 ^ i)

theorem read_concat (init : List UInt8) (last : UInt8) :
    read (init ++ [last]) = 256 * read init + last.toNat := by
  rw [read, List.foldl_append]
  rfl

/-- The last byte of a number is its remainder, and the others are its quotient. -/
theorem write_succ (width n : ℕ) :
    write (width + 1) n = write width (n / 256) ++ [UInt8.ofNat n] := by
  have hshift : ∀ i, n / 256 ^ (i + 1) = n / 256 / 256 ^ i := by
    intro i
    rw [Nat.pow_succ', Nat.div_div_eq_div_mul]
  rw [write, List.range_succ_eq_map, List.reverse_cons, List.map_append, ← List.map_reverse,
    List.map_map, write]
  refine congrArg₂ (· ++ ·) (List.map_congr_left fun i _ => ?_) (by simp)
  exact congrArg UInt8.ofNat (hshift i)

theorem read_write (width n : ℕ) : read (write width n) = n % 256 ^ width := by
  induction width generalizing n with
  | zero => simp [write, read, Nat.mod_one]
  | succ width ih =>
      have hmod : n % 256 ^ (width + 1) = n % 256 + 256 * (n / 256 % 256 ^ width) := by
        rw [Nat.pow_succ', Nat.mod_mul]
      rw [write_succ, read_concat, ih, UInt8.toNat_ofNat', hmod]
      exact Nat.add_comm _ _

theorem write_read (bytes : List UInt8) : write bytes.length (read bytes) = bytes := by
  induction bytes using List.reverseRecOn with
  | nil => rfl
  | append_singleton init last ih =>
      have hlast := last.toNat_lt
      have hinit : (256 * read init + last.toNat) / 256 = read init := by omega
      have hbyte : UInt8.ofNat (256 * read init + last.toNat) = last := by
        apply UInt8.toNat_inj.mp
        rw [UInt8.toNat_ofNat']
        omega
      rw [List.length_append, List.length_singleton, write_succ, read_concat, hinit, hbyte, ih]

theorem read_lt (bytes : List UInt8) : read bytes < 256 ^ bytes.length := by
  have hread := read_write bytes.length (read bytes)
  rw [write_read] at hread
  rw [hread]
  exact Nat.mod_lt _ (Nat.pow_pos (by decide))

end Yunpan.BigEndian
