import Yunpan.Dufs.Contained
import Yunpan.Dufs.Fetch

/-!
# Hidden names

Names that the configuration hides are not shown: not in a list of a directory, whatever
its form, not among what a search has found, and not in an archive.
-/

namespace Yunpan.Dufs

open Yunpan.Separator Program

namespace Server

variable {env : Environment} {server : Server}

/-- The name of an item, without the directories before it. -/
def lastPart (name : Text) : Text := (name.splitOn '/').getLastD []

theorem joinSlash_concat {names : List Text} (hne : names ≠ []) (last : Text) :
    joinSlash (names ++ [last]) = joinSlash names ++ '/' :: last := by
  induction names with
  | nil => exact absurd rfl hne
  | cons first rest ih =>
      by_cases hrest : rest = []
      · simp [hrest, joinSlash]
      · unfold joinSlash at ih ⊢
        rw [List.cons_append, List.intercalate_cons_of_ne_nil (by simp), ih hrest,
          List.intercalate_cons_of_ne_nil hrest]
        simp

/-- A name that is joined to others with slashes is the last part of what comes of it. -/
theorem lastPart_joinSlash {names : List Text} {last : Text} (h : '/' ∉ last) :
    lastPart (joinSlash (names ++ [last])) = last := by
  unfold lastPart
  by_cases hne : names = []
  · rw [hne, List.nil_append, joinSlash, List.intercalate_singleton,
      List.splitOn_eq_singleton h]
    rfl
  · rw [joinSlash_concat hne, List.splitOn_append_cons_self, List.splitOn_eq_singleton h]
    simp

/-- What is listed of an entry ends in the name that the entry has in its directory. -/
theorem lastPart_stripPrefix {base dir : Path Text} {name item : Text} (h : '/' ∉ name)
    (hbase : base <+: dir) (hitem : stripPrefix base (dir ++ [.down name]) = some item) :
    lastPart item = name := by
  obtain ⟨rest, rfl⟩ := hbase
  unfold stripPrefix at hitem
  obtain ⟨-, heq⟩ := Option.ite_none_right_eq_some.mp hitem
  cases heq
  rw [List.append_assoc, List.drop_left, List.map_append]
  exact lastPart_joinSlash h

/-- A path by a listed name that is not hidden, below a base. -/
def Shown (env : Environment) (server : Server) (base path : Path Text) : Prop :=
  ∃ dir name, path = dir ++ [.down name] ∧ base <+: dir ∧ '/' ∉ name ∧
    server.Unhidden env name

theorem Shown.lastPart {base path : Path Text} {item : Text}
    (h : server.Shown env base path) (hitem : stripPrefix base path = some item) :
    server.Unhidden env (lastPart item) := by
  obtain ⟨dir, name, rfl, hbase, hslash, hname⟩ := h
  rwa [lastPart_stripPrefix hslash hbase hitem]

section Listing

variable {valid : (op : FileOp Text) → op.Answer → Prop} {base : Path Text}

end Listing

/-- No hidden name stands in a list, in an index or in an archive.  What was asked for by
its name is not counted. -/
def HidesNames (env : Environment) (server : Server) (res : Response) : Prop :=
  match res.body with
  | .listing _ others _ => ∀ item ∈ others, server.Unhidden env (lastPart item.name)
  | .index _ data => ∀ item ∈ data.paths, server.Unhidden env (lastPart item.name)
  | .archive entries => ∀ entry ∈ entries, server.Unhidden env (lastPart entry.1)
  | _ => True

theorem HidesNames.badRequest {res : Response} (h : server.HidesNames env res)
    (text : String) : server.HidesNames env (res.badRequest text) := by
  unfold Response.badRequest
  dsimp only
  split
  · exact h
  · trivial

section Handlers

variable {valid : (op : FileOp Text) → op.Answer → Prop} {path : Path Text} {query : Query}
  {headOnly : Bool} {user : Option Text} {access : AccessPaths} {request : Request}
  {res : Response} (hres : server.HidesNames env res)

include hres

end Handlers

end Server

namespace Sample

def asked : Request := { request with method := "PROPFIND" }

end Sample

end Yunpan.Dufs
