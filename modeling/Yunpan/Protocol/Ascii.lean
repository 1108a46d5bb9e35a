import Yunpan.Core.Percent
import Yunpan.Core.Text
import Yunpan.Protocol.Json

/-!
# ASCII text and its bytes

Request lines and encoded addresses are ASCII, where a byte is a character.
-/

namespace Yunpan.Protocol

open Yunpan.Percent

def asciiText (bytes : List UInt8) : Text := bytes.map fun b => Char.ofNat b.toNat

theorem utf8_ofList (text : Text) :
    utf8 (String.ofList text) = text.flatMap String.utf8EncodeChar := by
  simp [utf8, List.utf8Encode]

theorem utf8EncodeChar_ascii {c : Char} (h : c.toNat < 128) :
    String.utf8EncodeChar c = [UInt8.ofNat c.toNat] :=
  if_pos (Nat.le_of_lt_succ h)

theorem utf8_ascii {text : Text} (h : ∀ c ∈ text, c.toNat < 128) :
    utf8 (String.ofList text) = text.map fun c => UInt8.ofNat c.toNat := by
  rw [utf8_ofList]
  induction text with
  | nil => rfl
  | cons c text ih =>
      have hc := utf8EncodeChar_ascii (h c List.mem_cons_self)
      have htext := ih fun x hx => h x (List.mem_cons_of_mem _ hx)
      rw [List.flatMap_cons, hc, htext]
      rfl

theorem toNat_ofNat_byte :
    ∀ b : UInt8, b < 128 → (Char.ofNat b.toNat).toNat = b.toNat := by
  apply forall_byte
  decide +kernel

theorem utf8_asciiText {bytes : List UInt8} (h : ∀ b ∈ bytes, b < 128) :
    utf8 (String.ofList (asciiText bytes)) = bytes := by
  have hascii : ∀ c ∈ asciiText bytes, c.toNat < 128 := by
    intro c hc
    obtain ⟨b, hb, rfl⟩ := List.mem_map.mp hc
    rw [toNat_ofNat_byte b (h b hb)]
    exact h b hb
  calc utf8 (String.ofList (asciiText bytes))
      = bytes.map fun b => UInt8.ofNat (Char.ofNat b.toNat).toNat := by
        rw [utf8_ascii hascii, asciiText, List.map_map]
        rfl
    _ = bytes.map id := by
        apply List.map_congr_left
        intro b hb
        rw [toNat_ofNat_byte b (h b hb), UInt8.ofNat_toNat]
        rfl
    _ = bytes := List.map_id bytes

/-- The bytes of a number are digits. -/
theorem mem_utf8_repr {n : ℕ} {b : UInt8} (h : b ∈ utf8 n.repr) : 48 ≤ b ∧ b ≤ 57 := by
  have hdigit : ∀ c ∈ n.repr.toList, 48 ≤ c.toNat ∧ c.toNat ≤ 57 := by
    intro c hc
    have hc := Separator.isDigit_of_mem_repr hc
    simpa [Char.isDigit, UInt32.le_iff_toNat_le] using hc
  have hascii : ∀ c ∈ n.repr.toList, c.toNat < 128 := by
    intro c hc
    have hc := hdigit c hc
    omega
  rw [← String.ofList_toList (s := n.repr), utf8_ascii hascii] at h
  obtain ⟨c, hc, rfl⟩ := List.mem_map.mp h
  have hrange := hdigit c hc
  have hsame : (UInt8.ofNat c.toNat).toNat = c.toNat := by
    rw [UInt8.toNat_ofNat']
    omega
  rw [UInt8.le_iff_toNat_le, UInt8.le_iff_toNat_le, hsame]
  exact hrange

end Yunpan.Protocol
