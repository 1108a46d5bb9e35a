import Mathlib.Data.List.Basic

/-!
# Percent-encoding

The encoders of the program differ only in the bytes that they keep.  A byte that
is not kept becomes a percent sign and two upper-case hexadecimal digits; the
decoder replaces every such triple and leaves all other bytes alone.
-/

namespace Yunpan.Percent

abbrev percent : UInt8 := 37

/-- Letters, digits and `-`, `_`, `.`, `~`: what `urlencoding::encode` keeps. -/
def isUnreserved (b : UInt8) : Bool :=
  (48 ≤ b && b ≤ 57) || (65 ≤ b && b ≤ 90) || (97 ≤ b && b ≤ 122) ||
    b == 45 || b == 95 || b == 46 || b == 126

def hexDigit (n : ℕ) : UInt8 := UInt8.ofNat (if n < 10 then 48 + n else 55 + n)

/-- The value of a hexadecimal digit, in either case. -/
def hexValue (b : UInt8) : Option ℕ :=
  if 48 ≤ b ∧ b ≤ 57 then some (b.toNat - 48)
  else if 65 ≤ b ∧ b ≤ 70 then some (b.toNat - 55)
  else if 97 ≤ b ∧ b ≤ 102 then some (b.toNat - 87)
  else none

def encodeByte (keep : UInt8 → Bool) (b : UInt8) : List UInt8 :=
  if keep b then [b]
  else [percent, hexDigit (b.toNat / 16), hexDigit (b.toNat % 16)]

def encode (keep : UInt8 → Bool) (bytes : List UInt8) : List UInt8 :=
  bytes.flatMap (encodeByte keep)

/-- The byte that two hexadecimal digits stand for. -/
def hexPair (hi lo : UInt8) : Option UInt8 :=
  match hexValue hi, hexValue lo with
  | some h, some l => some (UInt8.ofNat (16 * h + l))
  | _, _ => none

def decode : List UInt8 → List UInt8
  | b :: hi :: lo :: rest =>
      match if b = percent then hexPair hi lo else none with
      | some value => value :: decode rest
      | none => b :: decode (hi :: lo :: rest)
  | short => short

/-- A property of all bytes can be checked number by number. -/
theorem forall_byte {p : UInt8 → Prop} (h : ∀ n < 256, p (UInt8.ofNat n)) (b : UInt8) :
    p b := by
  simpa using h b.toNat b.toNat_lt

/-! ## Decoding undoes encoding -/

theorem hexValue_hexDigit : ∀ n < 16, hexValue (hexDigit n) = some n := by
  decide

theorem hexPair_hexDigit (b : UInt8) :
    hexPair (hexDigit (b.toNat / 16)) (hexDigit (b.toNat % 16)) = some b := by
  have hb : b.toNat < 256 := b.toNat_lt
  have hhi := hexValue_hexDigit (b.toNat / 16) (by omega)
  have hlo := hexValue_hexDigit (b.toNat % 16) (by omega)
  have hsum : 16 * (b.toNat / 16) + b.toNat % 16 = b.toNat := by omega
  simp [hexPair, hhi, hlo, hsum]

theorem decode_cons {b : UInt8} (h : b ≠ percent) (rest : List UInt8) :
    decode (b :: rest) = b :: decode rest := by
  match rest with
  | [] => rfl
  | [_] => rfl
  | _ :: _ :: _ => rw [decode, if_neg h]

theorem decode_encodeByte {keep : UInt8 → Bool} (hkeep : keep percent = false)
    (b : UInt8) (rest : List UInt8) :
    decode (encodeByte keep b ++ rest) = b :: decode rest := by
  unfold encodeByte
  split
  case isTrue hkept =>
    have hb : b ≠ percent := by
      rintro rfl
      rw [hkeep] at hkept
      cases hkept
    exact decode_cons hb rest
  case isFalse =>
    simp [decode, hexPair_hexDigit]

theorem decode_encode_append {keep : UInt8 → Bool} (hkeep : keep percent = false)
    (bytes rest : List UInt8) :
    decode (encode keep bytes ++ rest) = bytes ++ decode rest := by
  induction bytes with
  | nil => rfl
  | cons b bytes ih =>
      calc decode (encode keep (b :: bytes) ++ rest)
          = decode (encodeByte keep b ++ (encode keep bytes ++ rest)) := by
            simp [encode]
        _ = b :: (bytes ++ decode rest) := by rw [decode_encodeByte hkeep, ih]

theorem decode_encode {keep : UInt8 → Bool} (hkeep : keep percent = false)
    (bytes : List UInt8) : decode (encode keep bytes) = bytes := by
  simpa [decode] using decode_encode_append hkeep bytes []

/-! ## The bytes of an encoding -/

theorem hexDigit_mem : ∀ n < 16, isUnreserved (hexDigit n) = true := by
  decide

/-- An encoding is made of kept bytes, percent signs and unreserved bytes. -/
theorem forall_mem_encode {keep : UInt8 → Bool} {P : UInt8 → Prop} {bytes : List UInt8}
    (hkeep : ∀ b ∈ bytes, keep b = true → P b) (hpercent : P percent)
    (hunreserved : ∀ b, isUnreserved b = true → P b) :
    ∀ b ∈ encode keep bytes, P b := by
  intro b hb
  obtain ⟨source, hmem, hb⟩ := List.mem_flatMap.mp hb
  have hsource : source.toNat < 256 := source.toNat_lt
  unfold encodeByte at hb
  split at hb
  case isTrue hkept =>
    rw [List.mem_singleton.mp hb]
    exact hkeep source hmem hkept
  case isFalse =>
    simp only [List.mem_cons, List.not_mem_nil, or_false] at hb
    obtain rfl | rfl | rfl := hb
    · exact hpercent
    · exact hunreserved _ (hexDigit_mem _ (by omega))
    · exact hunreserved _ (hexDigit_mem _ (by omega))

/-- What is made of kept bytes only is its own encoding. -/
theorem encode_eq_self {keep : UInt8 → Bool} {bytes : List UInt8}
    (h : ∀ b ∈ bytes, keep b = true) : encode keep bytes = bytes := by
  induction bytes with
  | nil => rfl
  | cons b bytes ih =>
      have hb : encodeByte keep b = [b] := if_pos (h b List.mem_cons_self)
      have htail := ih fun x hx => h x (List.mem_cons_of_mem _ hx)
      rw [encode, List.flatMap_cons, hb]
      exact congrArg (b :: ·) htail

theorem length_le_encode (keep : UInt8 → Bool) (bytes : List UInt8) :
    bytes.length ≤ (encode keep bytes).length := by
  induction bytes with
  | nil => exact Nat.zero_le _
  | cons b bytes ih =>
      have hb : 1 ≤ (encodeByte keep b).length := by
        unfold encodeByte
        split <;> simp
      calc (b :: bytes).length = 1 + bytes.length := Nat.add_comm _ _
        _ ≤ (encodeByte keep b).length + (encode keep bytes).length :=
          Nat.add_le_add hb ih
        _ = (encode keep (b :: bytes)).length := by simp [encode]

/-- Only what is kept is its own encoding. -/
theorem keep_of_encode_eq {keep : UInt8 → Bool} {bytes : List UInt8}
    (h : encode keep bytes = bytes) : ∀ b ∈ bytes, keep b = true := by
  induction bytes with
  | nil => simp
  | cons b bytes ih =>
      by_cases hb : keep b = true
      · have hbyte : encodeByte keep b = [b] := if_pos hb
        rw [encode, List.flatMap_cons, hbyte] at h
        exact List.forall_mem_cons.mpr ⟨hb, ih (List.cons.inj h).2⟩
      · have hbyte : (encodeByte keep b).length = 3 := by simp [encodeByte, hb]
        have htail := length_le_encode keep bytes
        have hlength := congrArg List.length h
        rw [encode, List.flatMap_cons, List.length_append, hbyte,
          List.length_cons] at hlength
        rw [encode] at htail
        omega

end Yunpan.Percent
