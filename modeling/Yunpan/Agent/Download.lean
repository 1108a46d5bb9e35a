import Yunpan.Agent.Api

/-!
# The file that a download leaves behind

A download creates the local file, which empties it, and then hands it the body piece by
piece.  What was handed over has reached the file when a flush says so; where the download
gives up before, some first part of it has.
-/

namespace Yunpan.Agent

open Yunpan.Protocol

/-! ## The local file -/

/-- The bytes handed to the file at a path since it was created. -/
def Effect.hand (w : World) (path : String) (handed : Option (List UInt8)) :
    Effect → Option (List UInt8)
  | .createFile target =>
      if target = path ∧ (w.createFile target).isOk = true then some [] else handed
  | .write target chunk => if target = path then handed.map (· ++ chunk) else handed
  | _ => handed

/-- The content of the file at a path after a task; `landed` is how many of the bytes
handed over have reached it when the task gives up. -/
def fileAfter {α : Type} (w : World) (path : String) (before : Option (List UInt8))
    (landed : ℕ) (task : Task α) : Option (List UInt8) :=
  match task.after (Effect.hand w path) none with
  | none => before
  | some bytes =>
      match task.result with
      | .ok _ => some bytes
      | .error _ => some (bytes.take landed)

section

variable {α : Type} {w : World} {path : String} {before : Option (List UInt8)}
  {landed : ℕ} {task : Task α} {bytes : List UInt8}

theorem fileAfter_of_uncreated (h : task.after (Effect.hand w path) none = none) :
    fileAfter w path before landed task = before := by
  rw [fileAfter, h]

theorem fileAfter_of_ok (h : task.after (Effect.hand w path) none = some bytes)
    {value : α}
    (hresult : task.result = .ok value) :
    fileAfter w path before landed task = some bytes := by
  rw [fileAfter, h, hresult]

theorem fileAfter_of_error (h : task.after (Effect.hand w path) none = some bytes)
    {error : String} (hresult : task.result = .error error) :
    fileAfter w path before landed task = some (bytes.take landed) := by
  rw [fileAfter, h, hresult]

end

/-- The body of an answer that arrives whole. -/
def bodyOf : List (Except String (List UInt8)) → Option (List UInt8)
  | [] => some []
  | .error _ :: _ => none
  | .ok chunk :: chunks => (bodyOf chunks).map (chunk ++ ·)

/-- What a download promises about the local file. -/
def LeavesAlone (w : World) (t : Target) (remotePath localPath : String)
    (before : Option (List UInt8)) (landed : ℕ) : Prop :=
  match (download w t remotePath localPath).result with
  | .ok _ => ∃ resp bytes, w.send (t.request .get (t.url remotePath)) = .ok resp ∧
      bodyOf resp.chunks = some bytes ∧ fileAfter w localPath before landed
        (download w t remotePath localPath) = some bytes
  | .error _ => fileAfter w localPath before landed
      (download w t remotePath localPath) = before

/-- The body arrives whole and can be written. -/
structure Undisturbed (w : World) (resp : Response) : Prop where
  arrives : ∀ chunk ∈ resp.chunks, ∃ bytes, chunk = .ok bytes
  written : ∀ n < resp.chunks.length, w.write n = .ok ()
  flushed : w.flush = .ok ()

/-- The bytes of the pieces up to the first that does not arrive, or up to the first that
cannot be written. -/
def savedBytes (w : World) : ℕ → List (Except String (List UInt8)) → List UInt8
  | _, [] => []
  | _, .error _ :: _ => []
  | n, .ok chunk :: chunks =>
      chunk ++ if w.write n = .ok () then savedBytes w (n + 1) chunks else []

/-- The local file is created for an answer. -/
structure Creates (w : World) (t : Target) (remotePath localPath : String)
    (resp : Response) : Prop where
  build : w.build (t.request .get (t.url remotePath)) = .ok ()
  send : w.send (t.request .get (t.url remotePath)) = .ok resp
  success : resp.isSuccess = true
  create : w.createFile localPath = .ok ()

/-- Once the file is created nothing goes wrong, or what has reached it by then is what it
held before. -/
def Spared (w : World) (t : Target) (remotePath localPath : String)
    (before : Option (List UInt8)) (landed : ℕ) : Prop :=
  ∀ resp, Creates w t remotePath localPath resp →
    Undisturbed w resp ∨ before = some ((savedBytes w 0 resp.chunks).take landed)

/-! ## Writing the body -/

variable {w : World} {t : Target} {path remotePath localPath : String}

theorem after_saveChunks (chunks : List (Except String (List UInt8))) (n : ℕ)
    (total : UInt64) (bytes : List UInt8) :
    (saveChunks w path n chunks total).after (Effect.hand w path) (some bytes) =
      some (bytes ++ savedBytes w n chunks) := by
  induction chunks generalizing n total bytes with
  | nil => simp [saveChunks, savedBytes]
  | cons chunk chunks ih =>
      cases chunk with
      | error cause =>
          rw [saveChunks, Traced.after_bind_error rfl]
          simp [savedBytes]
      | ok chunk =>
          have hand : Effect.hand w path (some bytes) (.write path chunk) =
              some (bytes ++ chunk) := by simp [Effect.hand]
          rw [saveChunks, Traced.after_bind_ok rfl]
          cases hwrite : w.write n with
          | error cause =>
              rw [Traced.after_bind_error rfl, Traced.after_perform,
                Traced.after_ofExcept, hand]
              simp [savedBytes, hwrite]
          | ok value =>
              rw [Traced.after_bind_ok rfl, Traced.after_perform, Traced.after_ofExcept,
                hand, ih]
              simp [savedBytes, hwrite]

theorem saveChunks_ok_iff (chunks : List (Except String (List UInt8))) (n : ℕ)
    (total : UInt64) :
    (∃ total', (saveChunks w path n chunks total).result = .ok total') ↔
      (∀ chunk ∈ chunks, ∃ bytes, chunk = .ok bytes) ∧
        ∀ k < chunks.length, w.write (n + k) = .ok () := by
  induction chunks generalizing n total with
  | nil =>
      have hdone : (saveChunks w path n [] total).result = .ok total := rfl
      simp [hdone]
  | cons chunk chunks ih =>
      cases chunk with
      | error cause =>
          rw [saveChunks, Traced.result_bind_error rfl]
          simp
      | ok chunk =>
          rw [saveChunks, Traced.result_bind_ok rfl]
          cases hwrite : w.write n with
          | error cause =>
              rw [Traced.result_bind_error rfl]
              refine iff_of_false (by simp) fun h => ?_
              have hzero := h.2 0 (by simp)
              rw [Nat.add_zero, hwrite] at hzero
              cases hzero
          | ok value =>
              rw [Traced.result_bind_ok rfl, ih]
              simp only [List.mem_cons, forall_eq_or_imp, List.length_cons]
              constructor
              · rintro ⟨hall, hwritten⟩
                refine ⟨⟨⟨_, rfl⟩, hall⟩, fun k hk => ?_⟩
                cases k with
                | zero => exact hwrite
                | succ k =>
                    have := hwritten k (by omega)
                    rwa [Nat.add_right_comm] at this
              · rintro ⟨⟨-, hall⟩, hwritten⟩
                refine ⟨hall, fun k hk => ?_⟩
                have := hwritten (k + 1) (by omega)
                rwa [Nat.add_right_comm]

/-- A body that is written to the end is the body of the answer. -/
theorem bodyOf_eq (chunks : List (Except String (List UInt8))) (n : ℕ)
    (harrives : ∀ chunk ∈ chunks, ∃ bytes, chunk = .ok bytes)
    (hwritten : ∀ k < chunks.length, w.write (n + k) = .ok ()) :
    bodyOf chunks = some (savedBytes w n chunks) := by
  induction chunks generalizing n with
  | nil => rfl
  | cons chunk chunks ih =>
      obtain ⟨bytes, rfl⟩ := harrives chunk List.mem_cons_self
      have hfirst : w.write n = .ok () := hwritten 0 (by simp)
      have hrest : bodyOf chunks = some (savedBytes w (n + 1) chunks) := by
        apply ih
        · exact fun chunk hchunk => harrives chunk (List.mem_cons_of_mem _ hchunk)
        · intro k hk
          have := hwritten (k + 1) (by simpa using hk)
          rwa [Nat.add_right_comm]
      simp [bodyOf, hrest, savedBytes, hfirst]

/-! ## Before and after the file is created -/

def makeParent (w : World) (localPath : String) : Task Unit :=
  match parentDir localPath with
  | some parent => do
      let _ ← (Traced.perform (.createDirs parent) (w.createDirs parent)).attempt
      return ()
  | none => return ()

/-- The part of a download that works on the local file. -/
def save (w : World) (remotePath localPath : String) (resp : Response) :
    Task String := do
  let _ ← (Traced.perform (.createFile localPath) (w.createFile localPath)).context
    ("建不了本地文件 " ++ localPath)
  let total ← saveChunks w localPath 0 resp.chunks 0
  let _ ← Traced.perform (.flush localPath) w.flush
  return "已下载 " ++ remotePath ++ "（" ++ total.toNat.repr ++ " 字节）→ " ++ localPath

theorem download_eq : download w t remotePath localPath =
    (Task.send w (t.request .get (t.url remotePath))).context unreachable >>= fun resp =>
      ensureOk resp "下载" >>= fun _ =>
        makeParent w localPath >>= fun _ => save w remotePath localPath resp := by
  unfold download makeParent save
  cases parentDir localPath <;> simp

theorem result_makeParent : (makeParent w localPath).result = .ok () := by
  unfold makeParent
  cases parentDir localPath <;> rfl

theorem after_makeParent (handed : Option (List UInt8)) :
    (makeParent w localPath).after (Effect.hand w path) handed = handed := by
  unfold makeParent
  cases parentDir localPath <;> rfl

theorem ensureOk_of_success {resp : Response} (h : resp.isSuccess = true)
    (doing : String) : ensureOk resp doing = pure () := by
  rw [ensureOk, if_pos h]

theorem ensureOk_of_failure {resp : Response} (h : ¬resp.isSuccess = true)
    (doing : String) : ∃ error, ensureOk resp doing = .fail error := by
  unfold ensureOk
  rw [if_neg h]
  split_ifs <;> exact ⟨_, rfl⟩

theorem save_uncreated {cause : String}
    (hcreate : w.createFile localPath = .error cause)
    (resp : Response) :
    (save w remotePath localPath resp).after (Effect.hand w localPath) none = none ∧
      ∃ error, (save w remotePath localPath resp).result = .error error := by
  have hfailed : ((Traced.perform (.createFile localPath) (w.createFile localPath) :
      Task Unit).context ("建不了本地文件 " ++ localPath)).result =
        .error ("建不了本地文件 " ++ localPath ++ ": " ++ cause) := by
    rw [hcreate]
    rfl
  constructor
  · rw [save, Traced.after_bind_error hfailed, Traced.after_context,
      Traced.after_perform]
    simp [Effect.hand, hcreate, Except.isOk, Except.toBool]
  · exact ⟨_, Traced.result_bind_error hfailed _⟩

theorem save_created (hcreate : w.createFile localPath = .ok ()) (resp : Response) :
    (save w remotePath localPath resp).after (Effect.hand w localPath) none =
        some (savedBytes w 0 resp.chunks) ∧
      ((∃ text, (save w remotePath localPath resp).result = .ok text) ↔
        Undisturbed w resp) := by
  have hok : ((Traced.perform (.createFile localPath) (w.createFile localPath) :
      Task Unit).context ("建不了本地文件 " ++ localPath)).result = .ok () := by
    rw [hcreate]
    rfl
  have hempty : Effect.hand w localPath none (.createFile localPath) = some [] := by
    simp [Effect.hand, hcreate, Except.isOk, Except.toBool]
  have hsaved : (saveChunks w localPath 0 resp.chunks 0).after (Effect.hand w localPath)
      (some []) = some (savedBytes w 0 resp.chunks) := by
    simpa using after_saveChunks resp.chunks 0 0 []
  rw [save, Traced.after_bind_ok hok, Traced.result_bind_ok hok, Traced.after_context,
    Traced.after_perform, hempty]
  cases hchunks : (saveChunks w localPath 0 resp.chunks 0).result with
  | error cause =>
      rw [Traced.after_bind_error hchunks, Traced.result_bind_error hchunks, hsaved]
      refine ⟨rfl, iff_of_false (by simp) fun h => ?_⟩
      obtain ⟨total, htotal⟩ := (saveChunks_ok_iff resp.chunks 0 0).mpr
        ⟨h.arrives, by simpa using h.written⟩
      rw [hchunks] at htotal
      cases htotal
  | ok total =>
      obtain ⟨harrives, hwritten⟩ := (saveChunks_ok_iff resp.chunks 0 0).mp
        ⟨total, hchunks⟩
      rw [Traced.after_bind_ok hchunks, Traced.result_bind_ok hchunks, hsaved]
      cases hflush : w.flush with
      | error cause =>
          rw [Traced.after_bind_error rfl, Traced.result_bind_error rfl]
          refine ⟨rfl, iff_of_false (by simp) fun h => ?_⟩
          cases hflush.symm.trans h.flushed
      | ok value =>
          rw [Traced.after_bind_ok rfl, Traced.result_bind_ok rfl]
          refine ⟨rfl, iff_of_true ⟨_, rfl⟩ ⟨harrives, ?_, hflush⟩⟩
          simpa using hwritten

theorem download_uncreated (h : ∀ resp, ¬Creates w t remotePath localPath resp) :
    (download w t remotePath localPath).after (Effect.hand w localPath) none = none ∧
      ∃ error, (download w t remotePath localPath).result = .error error := by
  rw [download_eq]
  cases hbuild : w.build (t.request .get (t.url remotePath)) with
  | error cause =>
      rw [send_of_unbuildable hbuild, Traced.after_bind_error rfl,
        Traced.result_bind_error rfl]
      exact ⟨rfl, _, rfl⟩
  | ok value =>
      rw [send_of_built hbuild]
      cases hsend : w.send (t.request .get (t.url remotePath)) with
      | error cause =>
          rw [Traced.after_bind_error rfl, Traced.result_bind_error rfl]
          exact ⟨rfl, _, rfl⟩
      | ok resp =>
          rw [Traced.after_bind_ok rfl, Traced.result_bind_ok rfl]
          by_cases hsuccess : resp.isSuccess = true
          · rw [ensureOk_of_success hsuccess, pure_bind,
              Traced.after_bind_ok result_makeParent,
              Traced.result_bind_ok result_makeParent, after_makeParent]
            cases hcreate : w.createFile localPath with
            | error cause => exact save_uncreated hcreate resp
            | ok value => exact absurd ⟨hbuild, hsend, hsuccess, hcreate⟩ (h resp)
          · obtain ⟨error, hfail⟩ := ensureOk_of_failure hsuccess "下载"
            rw [hfail, Traced.after_bind_error rfl, Traced.result_bind_error rfl]
            exact ⟨rfl, _, rfl⟩

theorem download_creates {resp : Response} (h : Creates w t remotePath localPath resp) :
    (download w t remotePath localPath).after (Effect.hand w localPath) none =
        some (savedBytes w 0 resp.chunks) ∧
      ((∃ text, (download w t remotePath localPath).result = .ok text) ↔
        Undisturbed w resp) := by
  have hsent : ((Task.send w (t.request .get (t.url remotePath))).context
      unreachable).result = .ok resp := by
    rw [send_of_built h.build, h.send]
    rfl
  have hnone : ((Task.send w (t.request .get (t.url remotePath))).context
      unreachable).after (Effect.hand w localPath) none = none := by
    rw [send_of_built h.build]
    rfl
  rw [download_eq, Traced.after_bind_ok hsent, Traced.result_bind_ok hsent, hnone,
    ensureOk_of_success h.success, pure_bind, Traced.after_bind_ok result_makeParent,
    Traced.result_bind_ok result_makeParent, after_makeParent]
  exact save_created h.create resp

/-- A download leaves the local file alone exactly when nothing goes wrong once the file is
created, or the file comes to hold what it held before. -/
theorem download_leavesAlone_iff (w : World) (t : Target)
    (remotePath localPath : String)
    (before : Option (List UInt8)) (landed : ℕ) :
    LeavesAlone w t remotePath localPath before landed ↔
      Spared w t remotePath localPath before landed := by
  by_cases hcreates : ∃ resp, Creates w t remotePath localPath resp
  · obtain ⟨resp, hresp⟩ := hcreates
    obtain ⟨hafter, hok⟩ := download_creates hresp
    have hspared : Spared w t remotePath localPath before landed ↔
        Undisturbed w resp ∨
          before = some ((savedBytes w 0 resp.chunks).take landed) := by
      refine ⟨fun h => h resp hresp, fun h resp' hresp' => ?_⟩
      obtain rfl := Except.ok.inj (hresp.send.symm.trans hresp'.send)
      exact h
    rw [hspared, LeavesAlone]
    cases hresult : (download w t remotePath localPath).result with
    | ok text =>
        have hundisturbed := hok.mp ⟨text, hresult⟩
        have hbody := bodyOf_eq resp.chunks 0 hundisturbed.arrives
          (by simpa using hundisturbed.written)
        refine iff_of_true ⟨resp, _, hresp.send, hbody, ?_⟩ (Or.inl hundisturbed)
        exact fileAfter_of_ok hafter hresult
    | error cause =>
        have hdisturbed : ¬Undisturbed w resp := by
          intro h
          obtain ⟨text, htext⟩ := hok.mpr h
          cases hresult.symm.trans htext
        rw [fileAfter_of_error hafter hresult, or_iff_right hdisturbed]
        exact eq_comm
  · obtain ⟨hafter, error, hresult⟩ := download_uncreated fun resp hresp =>
      hcreates ⟨resp, hresp⟩
    have hspared : Spared w t remotePath localPath before landed :=
      fun resp hresp => absurd ⟨resp, hresp⟩ hcreates
    rw [LeavesAlone, hresult]
    exact iff_of_true (fileAfter_of_uncreated hafter) hspared

/-! ## A connection that breaks -/

/-- An answer that breaks off after its first piece. -/
def brokenResponse : Response where
  status := 200
  reason := "OK"
  index := .ok []
  chunks := [.ok (utf8 "half "), .error "error decoding response body"]

def brokenWorld : World where
  openFile _ := .error "No such file or directory (os error 2)"
  metadata _ := .error "No such file or directory (os error 2)"
  build _ := .ok ()
  send _ := .ok brokenResponse
  createDirs _ := .ok ()
  createFile _ := .ok ()
  write _ := .ok ()
  flush := .ok ()

def localTarget : Target where
  baseUrl := "http://127.0.0.1:5000"
  user := none
  pass := none

def lastYear : Option (List UInt8) := some (utf8 "last year's report")

/-- The download fails, and the report that was there is gone. -/
theorem report_overwritten :
    (∃ error, (download brokenWorld localTarget "report.txt" "/tmp/report.txt").result =
      .error error) ∧
    fileAfter brokenWorld "/tmp/report.txt" lastYear 5
        (download brokenWorld localTarget "report.txt" "/tmp/report.txt") =
      some (utf8 "half ") ∧
    ¬LeavesAlone brokenWorld localTarget "report.txt" "/tmp/report.txt" lastYear 5 := by
  have hcreates : Creates brokenWorld localTarget "report.txt" "/tmp/report.txt"
      brokenResponse := ⟨rfl, rfl, by decide, rfl⟩
  obtain ⟨hafter, hok⟩ := download_creates hcreates
  have hlanded : (savedBytes brokenWorld 0 brokenResponse.chunks).take 5 =
      utf8 "half " := by decide +kernel
  have hne : some (utf8 "half ") ≠ lastYear := by decide +kernel
  cases hresult :
      (download brokenWorld localTarget "report.txt" "/tmp/report.txt").result with
  | ok text =>
      obtain ⟨bytes, hbytes⟩ := (hok.mp ⟨text, hresult⟩).arrives
        (.error "error decoding response body") (by simp [brokenResponse])
      cases hbytes
  | error error =>
      have hfile : fileAfter brokenWorld "/tmp/report.txt" lastYear 5
          (download brokenWorld localTarget "report.txt" "/tmp/report.txt") =
            some (utf8 "half ") := by
        rw [fileAfter_of_error hafter hresult, hlanded]
      refine ⟨⟨error, rfl⟩, hfile, ?_⟩
      rw [LeavesAlone, hresult, hfile]
      exact hne

end Yunpan.Agent
