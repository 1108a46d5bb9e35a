import Yunpan.Protocol.Json
import Mathlib.Data.List.Infix

/-!
# Challenge and response

A connection proves its role by authenticating the text
`proto|context|nonce` with HMAC-SHA256 under the client's token.  The HMAC is
a parameter throughout: a function of key bytes and message bytes.
-/

namespace Yunpan.Protocol

/-- `Hmac<Sha256>` as a function of key and message. -/
abbrev Hmac := List UInt8 → List UInt8 → List UInt8

/-- A challenge drawn by the relay. -/
abbrev Nonce := Vector UInt8 32

def hexByte (byte : UInt8) : List Char :=
  [Nat.digitChar (byte.toNat / 16), Nat.digitChar (byte.toNat % 16)]

def hexEncode (bytes : List UInt8) : String :=
  String.ofList (bytes.flatMap hexByte)

theorem hexEncode_length (bytes : List UInt8) :
    (hexEncode bytes).length = 2 * bytes.length := by
  have hbyte : ∀ byte, (hexByte byte).length = 2 := fun _ => rfl
  rw [hexEncode, String.length_ofList, List.length_flatMap]
  simp [hbyte, Nat.mul_comm]

def Nonce.hex (nonce : Nonce) : String := hexEncode nonce.toList

/-- The text that `sign` authenticates. -/
def transcript (proto : UInt16) (role : Role) (nonceHex : String) : String :=
  proto.toNat.repr ++ "|" ++ role.context ++ "|" ++ nonceHex

def sign (hmac : Hmac) (token : String) (proto : UInt16) (role : Role)
    (nonceHex : String) : String :=
  hexEncode (hmac (utf8 token) (utf8 (transcript proto role nonceHex)))

/-- Compare byte strings without stopping at the first difference. -/
def bytesAgree (expected actual : List UInt8) : Bool :=
  if expected.length ≠ actual.length then false
  else (expected.zip actual).foldl
    (fun acc pair => acc ||| (pair.1 ^^^ pair.2)) 0 == 0

def verify (hmac : Hmac) (token : String) (proto : UInt16) (role : Role)
    (nonceHex macHex : String) : Bool :=
  bytesAgree (utf8 (sign hmac token proto role nonceHex)) (utf8 macHex)

/-! ## The comparison is equality -/

/-- An OR over XORs is zero exactly when every compared pair agrees. -/
theorem foldl_or_xor_eq_zero (pairs : List (UInt8 × UInt8)) (acc : UInt8) :
    pairs.foldl (fun acc pair => acc ||| (pair.1 ^^^ pair.2)) acc = 0 ↔
      acc = 0 ∧ ∀ pair ∈ pairs, pair.1 = pair.2 := by
  induction pairs generalizing acc with
  | nil => simp
  | cons pair pairs ih =>
      rw [List.foldl_cons, ih]
      simp [and_assoc]

theorem eq_of_zip_eq {left right : List UInt8} (hlength : left.length = right.length)
    (hpairs : ∀ pair ∈ left.zip right, pair.1 = pair.2) : left = right := by
  induction left generalizing right with
  | nil => simpa [eq_comm] using hlength
  | cons head tail ih =>
      cases right with
      | nil => simp at hlength
      | cons head' tail' =>
          simp only [List.zip_cons_cons, List.mem_cons, forall_eq_or_imp] at hpairs
          rw [hpairs.1, ih (by simpa using hlength) hpairs.2]

theorem bytesAgree_iff (expected actual : List UInt8) :
    bytesAgree expected actual = true ↔ expected = actual := by
  unfold bytesAgree
  constructor
  · intro h
    split at h
    case isTrue => cases h
    case isFalse hlength =>
      rw [beq_iff_eq, foldl_or_xor_eq_zero] at h
      exact eq_of_zip_eq (not_not.mp hlength) h.2
  · rintro rfl
    rw [if_neg (by simp), beq_iff_eq, foldl_or_xor_eq_zero]
    refine ⟨rfl, fun pair hpair => ?_⟩
    obtain ⟨i, hi, rfl⟩ := List.mem_iff_getElem.mp hpair
    simp

/-- `verify` accepts exactly the string that `sign` computes. -/
theorem verify_iff (hmac : Hmac) (token : String) (proto : UInt16) (role : Role)
    (nonceHex macHex : String) :
    verify hmac token proto role nonceHex macHex = true ↔
      macHex = sign hmac token proto role nonceHex := by
  rw [verify, bytesAgree_iff, utf8_injective.eq_iff, eq_comm]

@[simp]
theorem verify_sign (hmac : Hmac) (token : String) (proto : UInt16) (role : Role)
    (nonceHex : String) :
    verify hmac token proto role nonceHex (sign hmac token proto role nonceHex) =
      true :=
  (verify_iff hmac token proto role nonceHex _).mpr rfl

end Yunpan.Protocol
