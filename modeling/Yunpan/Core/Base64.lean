import Mathlib.Data.List.Basic

/-!
# Base64

The standard alphabet with padding.  The decoder refuses what the encoder would
not have written: other symbols, missing padding, and bits behind the last byte.
-/

namespace Yunpan.Base64

abbrev pad : UInt8 := 61

/-- The symbol of a six-bit value. -/
def symbol (n : ℕ) : UInt8 :=
  UInt8.ofNat (
    if n < 26 then 65 + n
    else if n < 52 then 71 + n
    else if n < 62 then n - 4
    else if n = 62 then 43
    else 47)

/-- The value of a symbol. -/
def value (b : UInt8) : Option ℕ :=
  if 65 ≤ b ∧ b ≤ 90 then some (b.toNat - 65)
  else if 97 ≤ b ∧ b ≤ 122 then some (b.toNat - 71)
  else if 48 ≤ b ∧ b ≤ 57 then some (b.toNat + 4)
  else if b = 43 then some 62
  else if b = 47 then some 63
  else none

def encode : List UInt8 → List UInt8
  | [] => []
  | [p] => [symbol (p.toNat / 4), symbol (p.toNat % 4 * 16), pad, pad]
  | [p, q] =>
      [symbol (p.toNat / 4), symbol (p.toNat % 4 * 16 + q.toNat / 16),
        symbol (q.toNat % 16 * 4), pad]
  | p :: q :: r :: rest =>
      symbol (p.toNat / 4) :: symbol (p.toNat % 4 * 16 + q.toNat / 16) ::
        symbol (q.toNat % 16 * 4 + r.toNat / 64) :: symbol (r.toNat % 64) :: encode rest

/-- The byte that two symbols begin with. -/
def firstByte (x y : ℕ) : UInt8 := UInt8.ofNat (x * 4 + y / 16)

def secondByte (y z : ℕ) : UInt8 := UInt8.ofNat (y % 16 * 16 + z / 4)

def thirdByte (z w : ℕ) : UInt8 := UInt8.ofNat (z % 4 * 64 + w)

def decode : List UInt8 → Option (List UInt8)
  | [] => some []
  | a :: b :: c :: d :: rest => do
      let x ← value a
      let y ← value b
      if rest = [] ∧ d = pad then
        if c = pad then
          if y % 16 = 0 then return [firstByte x y] else none
        else
          let z ← value c
          if z % 4 = 0 then return [firstByte x y, secondByte y z] else none
      else
        let z ← value c
        let w ← value d
        let bytes ← decode rest
        return firstByte x y :: secondByte y z :: thirdByte z w :: bytes
  | _ => none

/-! ## Decoding undoes encoding -/

theorem value_symbol : ∀ n < 64, value (symbol n) = some n := by
  decide

theorem symbol_ne_pad : ∀ n < 64, symbol n ≠ pad := by
  decide

/-- The bits of a byte over two symbols. -/
theorem firstByte_eq (p : UInt8) {low : ℕ} (h : low < 16) :
    firstByte (p.toNat / 4) (p.toNat % 4 * 16 + low) = p := by
  have hsum : p.toNat / 4 * 4 + (p.toNat % 4 * 16 + low) / 16 = p.toNat := by omega
  rw [firstByte, hsum, UInt8.ofNat_toNat]

theorem secondByte_eq (q : UInt8) (high : ℕ) {low : ℕ} (h : low < 4) :
    secondByte (high * 16 + q.toNat / 16) (q.toNat % 16 * 4 + low) = q := by
  have hq : q.toNat < 256 := q.toNat_lt
  have hsum : (high * 16 + q.toNat / 16) % 16 * 16 + (q.toNat % 16 * 4 + low) / 4 =
      q.toNat := by
    omega
  rw [secondByte, hsum, UInt8.ofNat_toNat]

theorem thirdByte_eq (r : UInt8) (high : ℕ) :
    thirdByte (high * 4 + r.toNat / 64) (r.toNat % 64) = r := by
  have hr : r.toNat < 256 := r.toNat_lt
  have hsum : (high * 4 + r.toNat / 64) % 4 * 64 + r.toNat % 64 = r.toNat := by omega
  rw [thirdByte, hsum, UInt8.ofNat_toNat]

theorem decode_encode (bytes : List UInt8) : decode (encode bytes) = some bytes := by
  induction bytes using encode.induct with
  | case1 => rfl
  | case2 p =>
      have hp : p.toNat < 256 := p.toNat_lt
      have hx := value_symbol (p.toNat / 4) (by omega)
      have hy := value_symbol (p.toNat % 4 * 16) (by omega)
      have hfirst := firstByte_eq p (Nat.zero_lt_succ 15)
      rw [Nat.add_zero] at hfirst
      simp [encode, decode, hx, hy, hfirst]
  | case3 p q =>
      have hp : p.toNat < 256 := p.toNat_lt
      have hq : q.toNat < 256 := q.toNat_lt
      have hx := value_symbol (p.toNat / 4) (by omega)
      have hy := value_symbol (p.toNat % 4 * 16 + q.toNat / 16) (by omega)
      have hz := value_symbol (q.toNat % 16 * 4) (by omega)
      have hpad := symbol_ne_pad (q.toNat % 16 * 4) (by omega)
      have hfirst := firstByte_eq p (show q.toNat / 16 < 16 by omega)
      have hsecond := secondByte_eq q (p.toNat % 4) (Nat.zero_lt_succ 3)
      rw [Nat.add_zero] at hsecond
      simp [encode, decode, hx, hy, hz, hpad, hfirst, hsecond]
  | case4 p q r rest ih =>
      have hp : p.toNat < 256 := p.toNat_lt
      have hq : q.toNat < 256 := q.toNat_lt
      have hr : r.toNat < 256 := r.toNat_lt
      have hx := value_symbol (p.toNat / 4) (by omega)
      have hy := value_symbol (p.toNat % 4 * 16 + q.toNat / 16) (by omega)
      have hz := value_symbol (q.toNat % 16 * 4 + r.toNat / 64) (by omega)
      have hw := value_symbol (r.toNat % 64) (by omega)
      have hpad := symbol_ne_pad (r.toNat % 64) (by omega)
      have hfirst := firstByte_eq p (show q.toNat / 16 < 16 by omega)
      have hsecond := secondByte_eq q (p.toNat % 4) (show r.toNat / 64 < 4 by omega)
      have hthird := thirdByte_eq r (q.toNat % 16)
      simp [encode, decode, hx, hy, hz, hw, hpad, hfirst, hsecond, hthird, ih]

end Yunpan.Base64
