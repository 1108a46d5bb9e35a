import Yunpan.Core.Framing

/-!
# A byte stream in pieces

A reader does not choose where its stream is cut: every read returns the next
piece, or as much of it as its buffer holds.  `read_exact` goes on until its
buffer is full, so all that counts is the concatenation of the pieces.
-/

namespace Yunpan.Framing

/-- What the reads of a stream deliver before its end; a read of no bytes would be
the end. -/
structure Reads where
  pieces : List (List UInt8)
  nonempty : ∀ piece ∈ pieces, piece ≠ []

def Reads.bytes (r : Reads) : List UInt8 := r.pieces.flatten

/-- Fill a buffer of `n` bytes; `none` is a stream that ends too early. -/
def readPieces : List (List UInt8) → ℕ → Option (List UInt8 × List (List UInt8))
  | pieces, 0 => some ([], pieces)
  | [], _ + 1 => none
  | piece :: pieces, n + 1 =>
      if n + 1 < piece.length then
        some (piece.take (n + 1), piece.drop (n + 1) :: pieces)
      else
        (readPieces pieces (n + 1 - piece.length)).map fun (bytes, rest) =>
          (piece ++ bytes, rest)

/-- A filled buffer is the beginning of the stream, and the rest is kept. -/
theorem readPieces_some {pieces rest : List (List UInt8)} {n : ℕ} {bytes : List UInt8}
    (h : readPieces pieces n = some (bytes, rest)) :
    pieces.flatten = bytes ++ rest.flatten ∧ bytes.length = n ∧
      ((∀ piece ∈ pieces, piece ≠ []) → ∀ piece ∈ rest, piece ≠ []) := by
  induction pieces generalizing n bytes with
  | nil =>
      cases n with
      | zero =>
          cases h
          exact ⟨rfl, rfl, id⟩
      | succ n => cases h
  | cons piece pieces ih =>
      cases n with
      | zero =>
          cases h
          exact ⟨rfl, rfl, id⟩
      | succ n =>
          rw [readPieces] at h
          split at h
          case isTrue hlong =>
            cases h
            refine ⟨by simp [← List.append_assoc], by simp; omega, fun hpieces => ?_⟩
            have hdrop : piece.drop (n + 1) ≠ [] := by simpa using hlong
            exact List.forall_mem_cons.mpr
              ⟨hdrop, fun p hp => hpieces p (List.mem_cons_of_mem _ hp)⟩
          case isFalse hshort =>
            obtain ⟨⟨tail, rest'⟩, htail, heq⟩ := Option.map_eq_some_iff.mp h
            cases heq
            obtain ⟨hflatten, hlength, hrest⟩ := ih htail
            refine ⟨by simp [hflatten], by simp [hlength]; omega, fun hpieces => ?_⟩
            exact hrest fun p hp => hpieces p (List.mem_cons_of_mem _ hp)

theorem readPieces_of_le {pieces : List (List UInt8)} {n : ℕ}
    (h : n ≤ pieces.flatten.length) : (readPieces pieces n).isSome = true := by
  induction pieces generalizing n with
  | nil =>
      obtain rfl : n = 0 := by simpa using h
      rfl
  | cons piece pieces ih =>
      cases n with
      | zero => rfl
      | succ n =>
          rw [readPieces]
          split
          case isTrue => rfl
          case isFalse =>
            rw [Option.isSome_map]
            apply ih
            simp only [List.flatten_cons, List.length_append] at h
            omega

/-- `read_exact`. -/
def Reads.readExact (r : Reads) (n : ℕ) : Option (List UInt8 × Reads) :=
  match h : readPieces r.pieces n with
  | none => none
  | some (bytes, rest) => some (bytes, ⟨rest, (readPieces_some h).2.2 r.nonempty⟩)

theorem Reads.readExact_some {r rest : Reads} {n : ℕ} {bytes : List UInt8}
    (h : r.readExact n = some (bytes, rest)) :
    r.bytes = bytes ++ rest.bytes ∧ bytes.length = n := by
  unfold Reads.readExact at h
  split at h
  case h_1 => cases h
  case h_2 hread =>
    cases h
    exact ⟨(readPieces_some hread).1, (readPieces_some hread).2.1⟩

/-- A stream that holds enough bytes fills the buffer with the first ones. -/
theorem Reads.readExact_append {r : Reads} {bytes further : List UInt8}
    (h : r.bytes = bytes ++ further) :
    ∃ rest, r.readExact bytes.length = some (bytes, rest) ∧ rest.bytes = further := by
  have hle : bytes.length ≤ r.pieces.flatten.length := by
    have := congrArg List.length h
    simp only [Reads.bytes, List.length_append] at this
    omega
  have hsome : (r.readExact bytes.length).isSome = true := by
    unfold Reads.readExact
    split
    case h_1 hnone => simpa [hnone] using readPieces_of_le hle
    case h_2 => rfl
  obtain ⟨⟨got, rest⟩, hread⟩ := Option.isSome_iff_exists.mp hsome
  obtain ⟨hbytes, hlength⟩ := Reads.readExact_some hread
  obtain ⟨rfl, hrest⟩ := List.append_inj (h.symm.trans hbytes) hlength.symm
  exact ⟨rest, hread, hrest.symm⟩

end Yunpan.Framing
