import Yunpan.Protocol.Signature
import Yunpan.Protocol.Sha256
import Yunpan.Core.Separator

/-!
# What the authenticated text determines

`sign` joins version, role and nonce with `|` and escapes nothing.  A nonce in
hexadecimal is free of the separator, so two texts that both end in one are
equal for equal parts only.  A client signs any string that it is sent as a
challenge: then the text of one role can also be the text of a role whose client
id continues the context of the first.
-/

namespace Yunpan.Protocol

open Yunpan.Separator

/-! ## Hexadecimal -/

theorem digitChar_inj {d e : ℕ} (hd : d < 16) (he : e < 16)
    (h : Nat.digitChar d = Nat.digitChar e) : d = e := by
  have hall : ∀ d < 16, ∀ e < 16, Nat.digitChar d = Nat.digitChar e → d = e := by
    decide
  exact hall d hd e he h

theorem hexByte_injective : Function.Injective hexByte := by
  intro b b' h
  have hb := b.toNat_lt
  have hb' := b'.toNat_lt
  simp only [hexByte, List.cons.injEq, and_true] at h
  have hhigh := digitChar_inj (by omega) (by omega) h.1
  have hlow := digitChar_inj (by omega) (by omega) h.2
  exact UInt8.toNat_inj.mp (by omega)

theorem hexEncode_injective : Function.Injective hexEncode := by
  intro left right h
  have hchars : left.flatMap hexByte = right.flatMap hexByte := by
    simpa [hexEncode] using congrArg String.toList h
  clear h
  induction left generalizing right with
  | nil =>
      cases right with
      | nil => rfl
      | cons b right => simp [hexByte] at hchars
  | cons b left ih =>
      cases right with
      | nil => simp [hexByte] at hchars
      | cons b' right =>
          have hparts := List.append_inj hchars (by simp [hexByte])
          rw [hexByte_injective hparts.1, ih hparts.2]

theorem bar_not_mem_hexEncode (bytes : List UInt8) :
    '|' ∉ (hexEncode bytes).toList := by
  have hdigit : ∀ d < 16, '|' ≠ Nat.digitChar d := by decide
  have hbyte : ∀ b : UInt8, '|' ∉ hexByte b := by
    intro b
    have hb := b.toNat_lt
    simp [hexByte, hdigit (b.toNat / 16) (by omega), hdigit (b.toNat % 16) (by omega)]
  simp [hexEncode, hbyte]

theorem Nonce.hex_injective : Function.Injective Nonce.hex := fun _ _ h =>
  Vector.toList_inj.mp (hexEncode_injective h)

theorem Nonce.bar_not_mem_hex (nonce : Nonce) : '|' ∉ nonce.hex.toList :=
  bar_not_mem_hexEncode _

/-! ## The context -/

theorem Role.context_injective : Function.Injective Role.context := by
  intro role role' h
  have hchars := congrArg String.toList h
  cases role with
  | control clientId =>
      cases role' with
      | control clientId' =>
          simp only [Role.context, String.toList_append,
            List.append_cancel_left_eq] at hchars
          rw [String.toList_inj.mp hchars]
      | data clientId' connId' => simp [Role.context] at hchars
  | data clientId connId =>
      cases role' with
      | control clientId' => simp [Role.context] at hchars
      | data clientId' connId' =>
          have hcolon : ∀ n : ℕ, ':' ∉ n.repr.toList :=
            fun n => not_mem_repr n (by decide)
          obtain ⟨hid, hconn⟩ := eq_of_right_free (hcolon connId.toNat)
            (hcolon connId'.toNat) (by simpa [Role.context] using hchars)
          rw [String.toList_inj.mp hid,
            UInt64.toNat_inj.mp (repr_injective (String.toList_inj.mp hconn))]

/-- A client id that continues a context of client `a`. -/
def Continues (a b : String) : Prop :=
  ∃ rest, b = a ++ "|" ++ rest ∨
    ∃ k : UInt64, b = a ++ ":" ++ k.toNat.repr ++ "|" ++ rest

theorem continues_of_context {role role' : Role} {moved : String}
    (h : role'.context = role.context ++ "|" ++ moved) :
    Continues role.clientId role'.clientId := by
  have hchars := congrArg String.toList h
  cases role with
  | control clientId =>
      cases role' with
      | control clientId' =>
          refine ⟨moved, Or.inl (String.toList_inj.mp ?_)⟩
          simpa [Role.context, Role.clientId] using hchars
      | data clientId' connId' => simp [Role.context] at hchars
  | data clientId connId =>
      cases role' with
      | control clientId' => simp [Role.context] at hchars
      | data clientId' connId' =>
          have hbar : '|' ∉ ':' :: connId'.toNat.repr.toList :=
            List.not_mem_cons_of_ne_of_not_mem (by decide)
              (not_mem_repr _ (by decide))
          have hsplit : clientId'.toList ++ ':' :: connId'.toNat.repr.toList =
              (clientId ++ ":" ++ connId.toNat.repr).toList ++ '|' :: moved.toList := by
            simpa [Role.context] using hchars
          obtain ⟨rest, hrest⟩ := before_of_free_tail hbar hsplit
          refine ⟨String.ofList rest, Or.inr ⟨connId, String.toList_inj.mp ?_⟩⟩
          simpa [Role.clientId] using hrest

/-- Texts that end in a nonce of the relay agree in every part, or the role of the
second continues the context of the first. -/
theorem transcript_eq_cases {proto proto' : UInt16} {role role' : Role}
    {nonceHex nonceHex' : String} (hfree : '|' ∉ nonceHex'.toList)
    (h : transcript proto role nonceHex = transcript proto' role' nonceHex') :
    proto = proto' ∧ ((role = role' ∧ nonceHex = nonceHex') ∨
      ∃ moved, role'.context = role.context ++ "|" ++ moved ∧
        nonceHex = moved ++ "|" ++ nonceHex') := by
  have hbar : ∀ n : ℕ, '|' ∉ n.repr.toList := fun n => not_mem_repr n (by decide)
  obtain ⟨hproto, hrest⟩ := eq_of_left_free (hbar proto.toNat) (hbar proto'.toNat)
    (by simpa [transcript] using congrArg String.toList h)
  refine ⟨UInt16.toNat_inj.mp (repr_injective (String.toList_inj.mp hproto)), ?_⟩
  obtain ⟨hrole, hnonce⟩ | ⟨moved, hrole, hnonce⟩ := cases_of_right_free hfree hrest
  · exact Or.inl ⟨Role.context_injective (String.toList_inj.mp hrole),
      String.toList_inj.mp hnonce⟩
  · refine Or.inr ⟨String.ofList moved, String.toList_inj.mp ?_,
      String.toList_inj.mp ?_⟩
    · simpa using hrole
    · simpa using hnonce

/-- Between nonces of the relay the text is unambiguous. -/
theorem transcript_injective {proto proto' : UInt16} {role role' : Role}
    {nonce nonce' : Nonce}
    (h : transcript proto role nonce.hex = transcript proto' role' nonce'.hex) :
    proto = proto' ∧ role = role' ∧ nonce = nonce' := by
  obtain ⟨hproto, ⟨hrole, hnonce⟩ | ⟨moved, -, hnonce⟩⟩ :=
    transcript_eq_cases nonce'.bar_not_mem_hex h
  · exact ⟨hproto, hrole, Nonce.hex_injective hnonce⟩
  · have hbar : '|' ∈ nonce.hex.toList := by simp [hnonce]
    exact absurd hbar nonce.bar_not_mem_hex

/-- The HMAC under the token tells two texts apart. -/
def Separates (hmac : Hmac) (token text text' : String) : Prop :=
  hmac (utf8 token) (utf8 text) = hmac (utf8 token) (utf8 text') → text = text'

/-- Signatures of texts that the HMAC tells apart are equal for equal texts only. -/
theorem transcript_eq_of_sign_eq {hmac : Hmac} {token : String} {proto proto' : UInt16}
    {role role' : Role} {nonceHex nonceHex' : String}
    (hseparates : Separates hmac token (transcript proto role nonceHex)
      (transcript proto' role' nonceHex'))
    (h : sign hmac token proto role nonceHex = sign hmac token proto' role' nonceHex') :
    transcript proto role nonceHex = transcript proto' role' nonceHex' := by
  apply hseparates
  exact hexEncode_injective h

/-- The authenticated text determines its parts, `verify` accepts the signature and
nothing else, and so a signature is accepted for what it was made for only. -/
theorem signature_exact (hmac : Hmac) :
    (∀ (proto proto' : UInt16) (role role' : Role) (nonce nonce' : Nonce),
      transcript proto role nonce.hex = transcript proto' role' nonce'.hex →
        proto = proto' ∧ role = role' ∧ nonce = nonce') ∧
    (∀ (token : String) (proto : UInt16) (role : Role) (nonce : Nonce)
      (macHex : String),
      verify hmac token proto role nonce.hex macHex = true ↔
        macHex = sign hmac token proto role nonce.hex) ∧
    ∀ (token : String) (proto proto' : UInt16) (role role' : Role)
      (nonce nonce' : Nonce),
      Separates hmac token (transcript proto role nonce.hex)
        (transcript proto' role' nonce'.hex) →
      (verify hmac token proto role nonce.hex
          (sign hmac token proto' role' nonce'.hex) = true ↔
        proto = proto' ∧ role = role' ∧ nonce = nonce') := by
  refine ⟨fun _ _ _ _ _ _ h => transcript_injective h,
    fun token proto role nonce macHex =>
      verify_iff hmac token proto role nonce.hex macHex,
    fun token proto proto' role role' nonce nonce' hseparates => ?_⟩
  rw [verify_iff]
  constructor
  · intro h
    apply transcript_injective
    exact transcript_eq_of_sign_eq hseparates h.symm
  · rintro ⟨rfl, rfl, rfl⟩
    rfl

/-- A signature of the control connection is refused for a data connection. -/
theorem signature_exact_sample :
    verify Sha256.hmac "mac-0123456789abcdef" 1 (.data "mac" 7)
      (Nonce.hex (Vector.replicate 32 0))
      (sign Sha256.hmac "mac-0123456789abcdef" 1 (.control "mac")
        (Nonce.hex (Vector.replicate 32 0))) = false := by
  have hdiffer : Sha256.hmac (utf8 "mac-0123456789abcdef")
        (utf8 (transcript 1 (.data "mac" 7) (Nonce.hex (Vector.replicate 32 0)))) ≠
      Sha256.hmac (utf8 "mac-0123456789abcdef")
        (utf8 (transcript 1 (.control "mac") (Nonce.hex (Vector.replicate 32 0)))) := by
    decide +kernel
  rw [Bool.eq_false_iff, ne_eq,
    (signature_exact Sha256.hmac).2.2 "mac-0123456789abcdef" 1 1
    (.data "mac" 7) (.control "mac") (Vector.replicate 32 0) (Vector.replicate 32 0)
    fun heq => absurd heq hdiffer]
  rintro ⟨-, hrole, -⟩
  cases hrole

/-- Every continuing client id does lend itself to the confusion. -/
theorem transcript_of_continues {a b : String} (h : Continues a b) :
    ∃ role role', role.clientId = a ∧ role'.clientId = b ∧ role ≠ role' ∧
      ∀ proto nonceHex', ∃ nonceHex,
        transcript proto role nonceHex = transcript proto role' nonceHex' := by
  obtain ⟨rest, rfl | ⟨k, rfl⟩⟩ := h
  · refine ⟨.control a, .control (a ++ "|" ++ rest), rfl, rfl, ?_,
      fun proto nonceHex' =>
      ⟨rest ++ "|" ++ nonceHex', String.toList_inj.mp ?_⟩⟩
    · intro heq
      have hlength := congrArg (fun role => role.clientId.toList.length) heq
      simp [Role.clientId] at hlength
    · simp [transcript, Role.context]
  · refine ⟨.data a k, .data (a ++ ":" ++ k.toNat.repr ++ "|" ++ rest) 0, rfl, rfl, ?_,
      fun proto nonceHex' => ⟨rest ++ ":0|" ++ nonceHex', String.toList_inj.mp ?_⟩⟩
    · intro heq
      have hlength := congrArg (fun role => role.clientId.toList.length) heq
      simp [Role.clientId] at hlength
    · simp [transcript, Role.context]

end Yunpan.Protocol
