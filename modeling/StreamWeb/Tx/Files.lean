import StreamWeb.Lib.PosixPath
import StreamWeb.Py
import StreamWeb.Tx.Flowgraph

/-!
# The files of the transmitter

The requests that name a file: an upload, a removal, and the start of packet
mode. Each builds a path below `TX_SOURCE_DIR` from a string of the client, and
`tx_paths_inside_iff` says for which requests what it comes to is a file of
that directory.
-/

namespace StreamWeb

open PosixPath

/-- `TX_MAX_UPLOAD_BYTES` -/
def txMaxUploadBytes : ℕ := 1024 * 1024 * 1024

/-- Which paths are regular files. The last component of such a path is a name. -/
structure FileSystem where
  isFile : String → Bool
  named : ∀ p, isFile p = true → basename p ≠ "" ∧ basename p ≠ "." ∧ basename p ≠ ".."

/-- What a request does with a path. -/
inductive PathUse where
  | opened (path : String)
  | removed (path : String)
  /-- Handed to `packet_mode`. -/
  | played (path : String)
  deriving DecidableEq

def PathUse.path : PathUse → String
  | opened path | removed path | played path => path

@[simp] theorem path_opened (path : String) : (PathUse.opened path).path = path := rfl
@[simp] theorem path_removed (path : String) : (PathUse.removed path).path = path := rfl
@[simp] theorem path_played (path : String) : (PathUse.played path).path = path := rfl

inductive TxResponse where
  | uploaded (name : String) (size : ℕ) (sha256 : String)
  | deleted (filename : String)
  /-- `status_dict`, but for the frequency and the attenuation. -/
  | status (running : Bool) (mode : Option TxMode)
  | error (text : String) (code : ℕ)
  /-- The exception of a flowgraph's method, code 500. -/
  | failed (outcome : TxOutcome)
  /-- An exception of the file system, code 500. -/
  | osError
  deriving DecidableEq

/-- What a request meets: the files, the hash, and the calls that raise. -/
structure TxSystem where
  files : FileSystem
  sha256 : Bytes → String
  openRaises : Bool := false
  removeRaises : Bool := false
  fault : Option GrFault := none
  startFault : Bool := false

section Handlers

variable (dir : String) (sys : TxSystem)

/-- `POST /api/tx/files` with the field `file`, its name and content. -/
def apiTxFilesUpload (file : Option (String × Bytes)) : TxResponse × List PathUse :=
  match file with
  | none => (.error "No 'file' field in request" 400, [])
  | some (filename, data) =>
    if filename = "" then (.error "Empty filename" 400, [])
    else
      let name := basename filename
      if txMaxUploadBytes < data.length then
        (.error ("File exceeds " ++ toString txMaxUploadBytes ++ " byte limit") 413, [])
      else
        let dest := join dir name
        if sys.openRaises then (.osError, [.opened dest])
        else (.uploaded name data.length (sys.sha256 data), [.opened dest, .opened dest])

/-- `DELETE /api/tx/files/<filename>` -/
def apiTxFilesDelete (filename : String) : TxResponse × List PathUse :=
  let path := join dir (basename filename)
  if !sys.files.isFile path then (.error "File not found" 404, [])
  else if sys.removeRaises then (.osError, [.removed path])
  else (.deleted filename, [.removed path])

/-- The end of `api_tx_start`, behind a mode change. -/
def startUnlessRunning (changed : TXFlowgraph × TxOutcome) : TXFlowgraph × TxResponse :=
  let started := if changed.1.running then (changed.1, .returned) else changed.1.start sys.startFault
  if changed.2 ≠ .returned then (changed.1, .failed changed.2)
  else if started.2 ≠ .returned then (started.1, .failed started.2)
  else (started.1, .status started.1.running started.1.mode)

/-- `POST /api/tx/start`, with the keys of its body. -/
def apiTxStart (fg : TXFlowgraph) (mode file : Option String) (repeats : Option Bool) :
    (TXFlowgraph × TxResponse) × List PathUse :=
  let mode := mode.getD "tone"
  if mode = "tone" then (startUnlessRunning sys (fg.toneMode sys.fault), [])
  else if mode = "packet" then
    let fileName := file.getD ""
    if fileName = "" then ((fg, .error "file is required for packet mode" 400), [])
    else
      let filePath := join dir fileName
      let changed := fg.packetMode filePath (repeats.getD true) (sys.files.isFile filePath) sys.fault
      (startUnlessRunning sys changed, [.played filePath])
  else ((fg, .error ("Unknown mode: " ++ mode) 400), [])

end Handlers

inductive TxRequest where
  | upload (file : Option (String × Bytes))
  | delete (filename : String)
  | start (mode file : Option String) (repeats : Option Bool)

/-- The paths a request uses. -/
def TxRequest.uses (dir : String) (sys : TxSystem) (fg : TXFlowgraph) : TxRequest → List PathUse
  | upload file => (apiTxFilesUpload dir sys file).2
  | delete filename => (apiTxFilesDelete dir sys filename).2
  | start mode file repeats => (apiTxStart dir sys fg mode file repeats).2

/-- A packet start that names a regular file names it in the directory: by one component, or by the
whole path. -/
def TxRequest.StaysInside (dir : String) (files : FileSystem) : TxRequest → Prop
  | start (some mode) (some file) _ =>
    mode = "packet" → files.isFile (join dir file) = true → Spells dir file
  | _ => True

section Inside

variable {dir : String} {files : FileSystem}

theorem directChild_iff_of_isFile {p : String} (regular : files.isFile (join dir p) = true) :
    DirectChild dir (join dir p) ↔ Spells dir p := by
  have named := files.named _ regular
  rw [basename_join] at named
  exact directChild_join_iff named.1 named.2.2

/-- A last component alone cannot lead out of the directory. -/
theorem directChild_basename {name : String}
    (regular : files.isFile (join dir (basename name)) = true) :
    DirectChild dir (join dir (basename name)) :=
  (directChild_iff_of_isFile regular).2 (.inl (slash_notMem_basename name))

variable (sys : TxSystem) (fg : TXFlowgraph)

theorem upload_uses (file : Option (String × Bytes)) {u : PathUse}
    (used : u ∈ (apiTxFilesUpload dir sys file).2) : ∃ name, u.path = join dir (basename name) := by
  unfold apiTxFilesUpload at used
  cases file with
  | none => cases used
  | some upload =>
    obtain ⟨filename, data⟩ := upload
    dsimp only at used
    split at used
    · cases used
    split at used
    · cases used
    split at used
    · exact ⟨filename, by rw [List.mem_singleton.1 used, path_opened]⟩
    · have same : u = .opened (join dir (basename filename)) := by simpa using used
      exact ⟨filename, by rw [same, path_opened]⟩

theorem delete_uses (filename : String) {u : PathUse}
    (used : u ∈ (apiTxFilesDelete dir sys filename).2) : u.path = join dir (basename filename) := by
  unfold apiTxFilesDelete at used
  dsimp only at used
  split at used
  · cases used
  split at used
  · rw [List.mem_singleton.1 used, path_removed]
  · rw [List.mem_singleton.1 used, path_removed]

/-- A start hands its file on as it is. -/
theorem start_uses (mode file : Option String) (repeats : Option Bool) (u : PathUse) :
    u ∈ (apiTxStart dir sys fg mode file repeats).2 ↔
      mode = some "packet" ∧ ∃ name, file = some name ∧ name ≠ "" ∧ u = .played (join dir name) := by
  unfold apiTxStart
  cases mode with
  | none => simp
  | some mode =>
    dsimp only [Option.getD_some]
    split
    · rename_i tone
      simp [tone]
    split
    · rename_i packet
      cases file with
      | none => simp [packet]
      | some name =>
        dsimp only [Option.getD_some]
        split
        · rename_i empty
          simp [empty]
        · rename_i named
          simp [packet, named]
    · rename_i other
      simp [other]

end Inside

/-- **When the files stay in their directory.** For every request, and wherever its paths are looked
at: all the regular files it uses are direct children of the directory, exactly when a packet start
spells one. -/
theorem tx_paths_inside_iff (dir : String) (sys : TxSystem) (fg : TXFlowgraph) (files : FileSystem)
    (r : TxRequest) :
    (∀ u ∈ r.uses dir sys fg, files.isFile u.path = true → DirectChild dir u.path) ↔
      r.StaysInside dir files := by
  cases r with
  | upload file =>
    refine ⟨fun _ => trivial, ?_⟩
    intro _ u used regular
    obtain ⟨name, path⟩ := upload_uses sys file used
    rw [path] at regular ⊢
    exact directChild_basename regular
  | delete filename =>
    refine ⟨fun _ => trivial, ?_⟩
    intro _ u used regular
    rw [delete_uses sys filename used] at regular ⊢
    exact directChild_basename regular
  | start mode file repeats =>
    constructor
    · intro inside
      cases mode with
      | none => trivial
      | some mode =>
        cases file with
        | none => trivial
        | some name =>
          intro packet regular
          subst packet
          by_cases empty : name = ""
          · subst empty
            exact .inl (by decide)
          · have used := (start_uses sys fg (some "packet") (some name) repeats
              (.played (join dir name))).2 ⟨rfl, name, rfl, empty, rfl⟩
            exact (directChild_iff_of_isFile regular).1 (inside _ used regular)
    · intro spelled u used regular
      obtain ⟨packet, name, named, _, rfl⟩ := (start_uses sys fg mode file repeats u).1 used
      subst packet
      subst named
      rw [path_played] at regular ⊢
      exact (directChild_iff_of_isFile regular).2 (spelled rfl regular)

/-- The password file, and no other. -/
def passwdOnly : FileSystem where
  isFile p := p = "/etc/passwd"
  named := by
    intro p found
    rw [of_decide_eq_true found]
    decide

/-- An absolute file name: the transmitter plays a file of another directory. -/
theorem tx_paths_escape :
    (apiTxStart "/srv/tx" { files := passwdOnly, sha256 := fun _ => "" } {} (some "packet")
        (some "/etc/passwd") none).1.1.connected = some ⟨0, .fileSource "/etc/passwd" true⟩ ∧
      ¬∀ u ∈ (TxRequest.start (some "packet") (some "/etc/passwd") none).uses "/srv/tx"
          { files := passwdOnly, sha256 := fun _ => "" } {},
        passwdOnly.isFile u.path = true → DirectChild "/srv/tx" u.path := by
  constructor
  · rfl
  · intro inside
    obtain ⟨c, _, component, _, same⟩ := inside (.played "/etc/passwd") (List.mem_singleton.2 rfl) rfl
    rw [join_component component] at same
    have front := congrArg (fun p : String => p.toList.take 2) same
    rw [String.toList_append, List.take_append_of_le_length (by decide)] at front
    exact absurd front (by decide)

end StreamWeb
