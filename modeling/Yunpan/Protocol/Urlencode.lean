import Yunpan.Core.Address
import Yunpan.Protocol.Json

/-!
# Encoded segments in an address

`urlencoding::encode` keeps the unreserved characters only.  Nothing it writes
ends a segment or a path, so the address parser appends encoded segments as they
are, except those that are dots.
-/

namespace Yunpan.Protocol

open Yunpan.Percent Yunpan.Address

/-- `urlencoding::encode`. -/
def urlencode (text : String) : List UInt8 := encode isUnreserved (utf8 text)

theorem urlencode_visible (text : String) :
    ∀ b ∈ urlencode text,
      32 < b ∧ b ≠ question ∧ b ≠ hashSign ∧ isSeparator b = false ∧
        keepInPath b = true := by
  have hall : ∀ b : UInt8, isUnreserved b = true →
      32 < b ∧ b ≠ question ∧ b ≠ hashSign ∧ isSeparator b = false ∧
        keepInPath b = true := by
    apply forall_byte
    decide +kernel
  apply forall_mem_encode
  · exact fun b _ => hall b
  · decide
  · exact hall

theorem decode_urlencode (text : String) : decode (urlencode text) = utf8 text :=
  decode_encode rfl _

theorem encode_urlencode (text : String) :
    encode keepInPath (urlencode text) = urlencode text :=
  encode_eq_self fun b hb => (urlencode_visible text b hb).2.2.2.2

/-- Encoding keeps dots, so the parser sees a dot segment exactly where the path
has one. -/
theorem isPlain_urlencode (text : String) :
    IsPlain (urlencode text) ↔ text ≠ "." ∧ text ≠ ".." := by
  constructor
  · intro h
    constructor
    · rintro rfl
      cases h.1
    · rintro rfl
      cases h.2
  · rintro ⟨hdot, hdots⟩
    constructor
    · by_contra h
      have hdecode := decode_of_isSingleDot (Bool.eq_true_of_not_eq_false h)
      rw [decode_urlencode] at hdecode
      exact hdot (utf8_injective hdecode)
    · by_contra h
      have hdecode := decode_of_isDoubleDot (Bool.eq_true_of_not_eq_false h)
      rw [decode_urlencode] at hdecode
      exact hdots (utf8_injective hdecode)

/-- The path state over encoded segments. -/
theorem pathState_urlencode (path : List Segment) (texts : List String)
    (last : String) :
    pathState path [] (List.intercalate [slash] ((texts ++ [last]).map urlencode)) =
      finish ((texts.map urlencode).foldl walk path) (urlencode last) := by
  have hfree : ∀ text, ∀ b ∈ urlencode text, isSeparator b = false :=
    fun text b hb => (urlencode_visible text b hb).2.2.2.1
  rw [List.map_append, List.map_singleton]
  apply pathState_join
  · intro segment hsegment
    obtain ⟨text, -, rfl⟩ := List.mem_map.mp hsegment
    exact hfree text
  · exact hfree last

theorem pathState_plain (path : List Segment) {texts : List String} (hne : texts ≠ [])
    (h : ∀ text ∈ texts, text ≠ "." ∧ text ≠ "..") :
    pathState path [] (List.intercalate [slash] (texts.map urlencode)) =
      path ++ texts.map urlencode := by
  obtain rfl | ⟨init, last, rfl⟩ := List.eq_nil_or_concat' texts
  · exact absurd rfl hne
  have hinit : ∀ segment ∈ init.map urlencode, IsPlain segment := by
    intro segment hsegment
    obtain ⟨text, htext, rfl⟩ := List.mem_map.mp hsegment
    exact (isPlain_urlencode text).mpr (h text (List.mem_append_left _ htext))
  have hlast : IsPlain (urlencode last) :=
    (isPlain_urlencode last).mpr (h last (List.mem_append_right _ List.mem_cons_self))
  have hencode : (init.map urlencode).map (encode keepInPath) = init.map urlencode := by
    simp [encode_urlencode]
  rw [pathState_urlencode, foldl_walk_plain hinit, hencode, finish_plain hlast,
    encode_urlencode]
  simp

end Yunpan.Protocol
