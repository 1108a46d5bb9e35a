import Yunpan.Dufs.Contained
import Yunpan.Dufs.Fetch

/-!
# Uploads that are taken up again

The page uploads a file with a `PUT`.  When that fails it asks for the size that the
server has and sends the rest with a `PATCH`, as often as it takes.  Requests can be
broken off at any point, and any operation on the disk can be refused.
-/

namespace Yunpan.Dufs

open Yunpan.Protocol Yunpan.Percent Yunpan.Address Program Server

variable {disk : Disk Text} {location : Location Text} {file bytes : List UInt8}
  {allowed : List UInt8 → Prop}

/-- What stands at the location, if anything, is a file with an allowed content. -/
def Holds (location : Location Text) (allowed : List UInt8 → Prop) (disk : Disk Text) :
    Prop :=
  disk.Settled location ∧
    ∀ inode, disk.tree.lookup location = some (.file inode) → allowed (disk.content inode)

theorem Holds.of_stored (h : disk.Stored location bytes) (hbytes : allowed bytes) :
    Holds location allowed disk := by
  obtain ⟨hsettled, inode, hfile, heq⟩ := h
  refine ⟨hsettled, fun other hother => ?_⟩
  rw [hfile] at hother
  cases hother
  rwa [heq]

theorem Holds.of_none (h : disk.Settled location)
    (hnone : disk.tree.lookup location = none) : Holds location allowed disk := by
  refine ⟨h, fun inode hfile => ?_⟩
  rw [hnone] at hfile
  cases hfile

theorem Holds.allows (h : Holds location allowed disk) (hstored : disk.Stored location bytes) :
    allowed bytes := by
  obtain ⟨-, inode, hfile, rfl⟩ := hstored
  exact h.2 inode hfile

/-- Directories that are made elsewhere leave the file as it is. -/
theorem Holds.grown {disk' : Disk Text} (h : Holds location allowed disk)
    (hgrown : disk.Grown location.dropLast disk') : Holds location allowed disk' := by
  obtain ⟨hsettled, hsame⟩ := hgrown.settled h.1
  refine ⟨hsettled, fun inode hfile => ?_⟩
  rw [hgrown.content]
  exact h.2 inode (hsame.symm.trans hfile)

theorem stored_grown {disk' : Disk Text} (h : disk.Stored location bytes)
    (hgrown : disk.Grown location.dropLast disk') : disk'.Stored location bytes := by
  obtain ⟨hsettled, inode, hfile, hbytes⟩ := h
  obtain ⟨hsettled', hsame⟩ := hgrown.settled hsettled
  exact ⟨hsettled', inode, hsame.trans hfile, by rw [hgrown.content, hbytes]⟩

/-! ## The handler of an upload -/

/-- What holds however many directories have come holds of the disk with a parent. -/
theorem ensurePathParent_wp {P Q : Disk Text → Prop} (hsettled : disk.Settled location)
    (hP : ∀ disk', disk.Grown location.dropLast disk' → P disk')
    (hQ : ∀ disk', disk.Grown location.dropLast disk' → Q disk') :
    wp Disk.act (fun _ => P) Q (ensurePathParent location.path) disk := by
  have hne : location.path ≠ [] := fun hnil => hsettled.ne_nil (List.map_eq_nil_iff.mp hnil)
  have hparent : parent location.path = some (Location.path location.dropLast) := by
    rw [parent, if_neg hne]
    exact congrArg some List.map_dropLast.symm
  have hself : Q disk := hQ disk .refl
  have hmade : wp Disk.act (fun _ => P) Q
      (perform (FileOp.createDirAll (Location.path location.dropLast))) disk := by
    have hgrown := Disk.makeDirs_grown hsettled.top []
      (hsettled.plain.of_above (List.dropLast_prefix location))
    exact wp_perform.mpr ⟨hself, hQ _ hgrown, fun _ _ => hP _ hgrown⟩
  unfold ensurePathParent
  rw [hparent]
  refine (Disk.wp_reads_bind (by trivial)).mpr ⟨hself, ?_, hmade⟩
  split
  · exact ⟨hself, hP disk .refl⟩
  · exact hmade

/-- The pieces are put behind what is there, as far as they are written. -/
theorem writeAll_wp {descriptor : ℕ} {pieces : List (List UInt8)}
    (hallowed : ∀ part, part <+: file → allowed part)
    (h : disk.Writing location descriptor bytes) (hbegins : bytes ++ pieces.flatten <+: file) :
    wp Disk.act
      (fun written disk' => Holds location allowed disk' ∧
        (written = true → disk'.Stored location (bytes ++ pieces.flatten)))
      (Holds location allowed) (writeAll descriptor pieces) disk := by
  induction pieces generalizing disk bytes with
  | nil =>
      rw [List.flatten_nil, List.append_nil] at hbegins ⊢
      have hpart := Holds.of_stored h.stored (hallowed bytes hbegins)
      exact ⟨hpart, hpart, fun _ => h.stored⟩
  | cons piece pieces ih =>
      have hpart : Holds location allowed disk :=
        .of_stored h.stored (hallowed bytes ((List.prefix_append bytes _).trans hbegins))
      obtain ⟨hanswer, hwriting⟩ := Disk.write_writing h piece
      rw [List.flatten_cons, ← List.append_assoc] at hbegins ⊢
      refine (wp_attempt_bind _ _).mpr ⟨hpart, ?_, ⟨hpart, hpart, fun hno => by cases hno⟩⟩
      rw [hanswer]
      exact ih hwriting hbegins

/-- The end of an upload, once its file is open. -/
theorem finish_wp {descriptor status : ℕ} {uploadOffset : Option ℕ} {request : Request}
    {res : Response} (hallowed : ∀ part, part <+: file → allowed part)
    (h : disk.Writing location descriptor bytes)
    (hbegins : bytes ++ request.pieces.flatten <+: file)
    (hcomplete : request.complete = true → bytes ++ request.pieces.flatten = file) :
    wp Disk.act
      (fun _ disk' => Holds location allowed disk' ∧ disk'.Stored location file)
      (Holds location allowed)
      (do
        let written ← writeAll descriptor request.pieces
        let found ← Fs.metadata location.path
        if written ∧ request.complete then return res.setStatus status
        if uploadOffset = none ∧
            (found.map Metadata.len).getD 0 < resumableUploadMinSize then
          let _ ← attempt (FileOp.removeFile location.path)
        .fail) disk := by
  refine wp_bind.mpr (wp_mono (writeAll_wp hallowed h hbegins) ?_)
  rintro written disk' ⟨hpart, hstored⟩
  have hfound : ∀ found : Option Metadata, wp Disk.act
      (fun _ disk' => Holds location allowed disk' ∧ disk'.Stored location file)
      (Holds location allowed)
      (do
        if written ∧ request.complete then return res.setStatus status
        if uploadOffset = none ∧
            (found.map Metadata.len).getD 0 < resumableUploadMinSize then
          let _ ← attempt (FileOp.removeFile location.path)
        .fail) disk' := by
    intro found
    split
    case isTrue hdone =>
      refine ⟨hpart, hpart, ?_⟩
      rw [← hcomplete hdone.2]
      exact hstored hdone.1
    case isFalse =>
      split
      case isTrue =>
        refine (wp_attempt_bind _ _).mpr ⟨hpart, ?_, hpart⟩
        obtain hsame | ⟨hsettled, hnone⟩ := Disk.removeFile_settled hpart.1
        · rw [hsame]
          exact hpart
        · exact Holds.of_none hsettled hnone
      case isFalse => exact hpart
  exact (Disk.wp_reads_bind (by trivial)).mpr ⟨hpart, hfound _, hfound none⟩

section HandleUpload

variable {request : Request} {size : ℕ} {res : Response}

/-- A `PUT` leaves a beginning of the file whatever happens, and all of it when it is
answered. -/
theorem handleUpload_put_wp (hallowed : ∀ part, part <+: file → allowed part)
    (h : Holds location allowed disk)
    (hbegins : request.pieces.flatten <+: file)
    (hcomplete : request.complete = true → request.pieces.flatten = file) :
    wp Disk.act
      (fun _ disk' => Holds location allowed disk' ∧ disk'.Stored location file)
      (Holds location allowed) (handleUpload location.path none size request res) disk := by
  refine wp_bind.mpr (wp_mono (ensurePathParent_wp h.1 (fun _ => h.grown)
    fun _ => h.grown) ?_)
  intro _ disk' hpart
  refine wp_bind.mpr ((wp_perform_bind _ _).mpr ?_)
  obtain ⟨hsame, hnone⟩ | ⟨descriptor, hanswer, hwriting⟩ := Disk.create_writing hpart.1
  · rw [hsame, hnone]
    exact ⟨hpart, hpart, fun _ hanswer => by cases hanswer⟩
  · have hempty : Holds location allowed (disk'.act (.create location.path)).1 :=
      .of_stored hwriting.stored (hallowed [] List.nil_prefix)
    rw [hanswer]
    refine ⟨hpart, hempty, fun answer heq => ?_⟩
    cases heq
    exact ⟨hempty, finish_wp hallowed hwriting hbegins hcomplete⟩

/-- A `PATCH` at the end of what is there does the same. -/
theorem handleUpload_append_wp (hallowed : ∀ part, part <+: file → allowed part)
    (h : disk.Stored location bytes)
    (hbegins : bytes ++ request.pieces.flatten <+: file)
    (hcomplete : request.complete = true → bytes ++ request.pieces.flatten = file) :
    wp Disk.act
      (fun _ disk' => Holds location allowed disk' ∧ disk'.Stored location file)
      (Holds location allowed)
      (handleUpload location.path (some size) size request res) disk := by
  have hbytes : allowed bytes := hallowed bytes ((List.prefix_append bytes _).trans hbegins)
  have hparent : wp Disk.act (fun _ => (Disk.Stored location bytes ·))
      (Holds location allowed) (ensurePathParent location.path) disk := by
    obtain ⟨hsettled, -⟩ := id h
    exact ensurePathParent_wp hsettled (fun _ hgrown => stored_grown h hgrown)
      fun _ hgrown => .of_stored (stored_grown h hgrown) hbytes
  refine wp_bind.mpr (wp_mono hparent ?_)
  intro _ disk' hstored
  have hpart : Holds location allowed disk' := .of_stored hstored hbytes
  obtain ⟨descriptor, hanswer, hwriting⟩ := Disk.openAppend_writing hstored
  have hopened : Holds location allowed (disk'.act (.openAppend location.path)).1 :=
    .of_stored hwriting.stored hbytes
  simp only [openUpload, if_true]
  refine wp_bind.mpr ((wp_perform_bind _ _).mpr ⟨hpart, hopened, fun answer heq => ?_⟩)
  rw [hanswer] at heq
  cases heq
  exact ⟨hopened, finish_wp hallowed hwriting hbegins hcomplete⟩

end HandleUpload

/-! ## The requests of an upload -/

section Handle

variable {env : Environment} {server : Server} {request : Request}

/-- The body of a request is what is left of a file, or breaks off before. -/
structure Carries (rest : List UInt8) (request : Request) : Prop where
  begins : request.pieces.flatten <+: rest
  complete : request.complete = true → request.pieces.flatten = rest

/-- What an upload leaves behind: all of the file, if it is answered with success. -/
def Uploaded (location : Location Text) (allowed : List UInt8 → Prop) (file : List UInt8)
    (res : Response) (disk : Disk Text) : Prop :=
  Holds location allowed disk ∧ (res.status < 300 → disk.Stored location file)

theorem Uploaded.of_error {res : Response} (h : Holds location allowed disk)
    (hrefuses : res.Refuses) : Uploaded location allowed file res disk :=
  ⟨h, fun hlt => absurd hlt (by have := hrefuses.1; omega)⟩

/-- Wherever a `PUT` is broken off, the location holds an allowed content, when every
beginning of the file is one. -/
theorem handle_put_wp (hleads : LeadsTo server location request)
    (hput : request.method = "PUT")
    (hallowed : ∀ part, part <+: file → allowed part) (hcarries : Carries file request)
    (h : Holds location allowed disk) :
    wp Disk.act (Uploaded location allowed file) (Holds location allowed)
      (server.handle env request) disk := by
  have hverb : verbOf request.method = .put := by rw [hput]; rfl
  refine handle_wp hleads (by rw [hput]; decide) h (fun _ => .of_error h) ?_
  intro visit res _ hpath _ _
  rw [dispatch, hverb]
  dsimp only
  split
  case isTrue => exact ⟨h, .of_error h (show 400 ≤ 403 ∧ 403 ≤ 404 by decide)⟩
  case isFalse =>
    rw [hpath]
    exact wp_mono (handleUpload_put_wp hallowed h hcarries.begins hcarries.complete)
      fun _ _ hdone => ⟨hdone.1, fun _ => hdone.2⟩

/-- A `PATCH` that appends goes on where the stored beginning of the file ends. -/
theorem handle_append_wp (hleads : LeadsTo server location request)
    (hpatch : request.method = "PATCH")
    (hrange : request.updateRange = some (bytesOf "append".toList))
    (hallowed : ∀ part, part <+: file → allowed part) (hfile : bytes <+: file)
    (hcarries : Carries (file.drop bytes.length) request)
    (h : disk.Stored location bytes) :
    wp Disk.act (Uploaded location allowed file) (Holds location allowed)
      (server.handle env request) disk := by
  have hpart : Holds location allowed disk := .of_stored h (hallowed bytes hfile)
  have hsplit : bytes ++ file.drop bytes.length = file := by
    obtain ⟨rest, rfl⟩ := hfile
    rw [List.drop_left]
  have hverb : verbOf request.method = .patch := by rw [hpatch]; rfl
  refine handle_wp hleads (by rw [hpatch]; decide) hpart (fun _ => .of_error hpart) ?_
  intro visit res _ hpath _ _
  rw [dispatch, hverb]
  dsimp only
  rw [handlePatch, hrange]
  split
  case isTrue => exact ⟨hpart, .of_error hpart (show 400 ≤ 404 ∧ 404 ≤ 404 by decide)⟩
  case isFalse =>
    split
    case isTrue => exact ⟨hpart, .of_error hpart (show 400 ≤ 403 ∧ 403 ≤ 404 by decide)⟩
    case isFalse =>
      have hoffset : parseUploadOffset (some (bytesOf "append".toList)) visit.size =
          .ok (some visit.size) := rfl
      rw [hoffset, hpath]
      refine wp_mono (handleUpload_append_wp hallowed h ?_ fun hdone => ?_)
        fun _ _ hdone => ⟨hdone.1, fun _ => hdone.2⟩
      · rw [← hsplit]
        exact (List.prefix_append_right_inj bytes).mpr hcarries.begins
      · rw [hcarries.complete hdone, hsplit]

end Handle

namespace Sample

theorem settled : Sample.disk.Settled [['s'], ['d'], ['f']] where
  top := rfl
  plain _ _ _ _ hlink := by
    obtain hdir | ⟨-, hfile⟩ := lookup_tree hlink
    · cases hdir
    · cases hfile
  notDir hdir := by cases hdir

end Sample

namespace Server

variable {server : Server} {location : Location Text} {disk : Disk Text}

end Server

end Yunpan.Dufs
