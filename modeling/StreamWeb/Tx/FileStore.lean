import Mathlib.Data.List.Sort
import Mathlib.Data.String.Basic
import StreamWeb.Lib.Machine
import StreamWeb.Lib.PosixFiles
import StreamWeb.Tx.Files

/-!
# The store of packet files

The directory the transmitter plays from, with its three requests side by side.
An upload empties the file and then writes it piece by piece and reads it again
for the hash, a removal looks before it removes, and a listing goes through the
names one after the other, so that other requests come in between anywhere.

`files_served` says what holds of one name in all runs in which no upload or
removal of this name overlaps another request for it, whatever happens to the
other names: the replies are those of a cell that is stored, deleted and listed
in one piece.
-/

namespace StreamWeb

open PosixFiles PosixPath

/-- An entry of the listing. -/
structure FileRow where
  name : String
  size : ℕ
  sha256 : String
  deriving DecidableEq

inductive FileRequest where
  /-- With the field `file`, its name and content. -/
  | upload (file : Option (String × Bytes))
  | delete (filename : String)
  | list
  deriving DecidableEq

inductive FileReply where
  | uploaded (name : String) (size : ℕ) (sha256 : String)
  | deleted (filename : String)
  | files (rows : List FileRow)
  | error (text : String) (code : ℕ)
  /-- An exception of the file system, code 500. -/
  | osError
  deriving DecidableEq

/-- `_file_sha256` under way: the file is open and this was read of it. -/
inductive Digest where
  | opening
  | reading (inode : ℕ) (seen : Bytes)
  deriving DecidableEq

inductive Hashed where
  | raised
  | more (d : Digest)
  | done (content : Bytes)

/-- The next system call of `_file_sha256`. -/
def Digest.next (files : Files UInt8) (name : String) (fault : Bool) : Digest → Hashed
  | opening =>
    match files.inode name with
    | some inode => if fault then .raised else .more (.reading inode [])
    | none => .raised
  | reading inode seen =>
    let chunk := ((files.bytes inode).drop seen.length).take 131072
    if fault then .raised
    else if chunk = [] then .done seen
    else .more (.reading inode (seen ++ chunk))

/-- Where a request is, with its local variables. -/
inductive FilePhase where
  | arrived (r : FileRequest)
  /-- `open(dest, "wb")` -/
  | create (filename : String) (data : Bytes)
  /-- `out.write(data)`, of which this much is written -/
  | write (filename : String) (data : Bytes) (inode written : ℕ)
  /-- `_file_sha256(dest)` -/
  | digest (filename : String) (data : Bytes) (d : Digest)
  /-- `os.remove(path)` -/
  | remove (filename : String)
  /-- `os.path.isfile(path)` of the next name -/
  | look (rows : List FileRow) (names : List String)
  /-- `os.path.getsize(path)` -/
  | measure (rows : List FileRow) (name : String) (names : List String)
  /-- `_file_sha256(path)` -/
  | row (rows : List FileRow) (name : String) (size : ℕ) (d : Digest) (names : List String)
  | done
  deriving DecidableEq

/-- `TX_SOURCE_DIR` as the process finds it, and the hash. -/
structure TxSourceDir where
  sha256 : Bytes → String
  start : Files UInt8 := {}
  /-- The directories in it. -/
  subdirs : List String := []
  nodup : subdirs.Nodup := by simp
  apart : ∀ x ∈ subdirs, start.inode x = none := by simp
  named : ∀ x ∈ ["", ".", ".."], start.inode x = none ∧ x ∉ subdirs := by simp

/-- The name is a directory's. -/
def TxSourceDir.isDir (dir : TxSourceDir) (x : String) : Bool := x ∈ dir.subdirs ∨ x ∈ ["", ".", ".."]

structure Advanced where
  files : Files UInt8
  phase : FilePhase
  answer : Option (FileRequest × FileReply) := none

section Advance

variable (dir : TxSourceDir) (files : Files UInt8) (count : ℕ) (fault : Bool)

/-- The next system call of a request. A write takes `count` bytes, and a call raises with a `fault`. -/
def FilePhase.advance : FilePhase → Advanced
  | arrived (.upload none) =>
    { files, phase := done, answer := some (.upload none, .error "No 'file' field in request" 400) }
  | arrived (.upload (some (filename, data))) =>
    if filename = "" then
      { files, phase := done, answer := some (.upload (some (filename, data)), .error "Empty filename" 400) }
    else if txMaxUploadBytes < data.length then
      { files, phase := done,
        answer := some (.upload (some (filename, data)),
          .error ("File exceeds " ++ toString txMaxUploadBytes ++ " byte limit") 413) }
    else { files, phase := create filename data }
  | create filename data =>
    if fault || dir.isDir (basename filename) then
      { files, phase := done, answer := some (.upload (some (filename, data)), .osError) }
    else
      let opened := files.openNew (basename filename)
      { files := opened.1, phase := write filename data opened.2 0 }
  | write filename data inode written =>
    if fault then { files, phase := done, answer := some (.upload (some (filename, data)), .osError) }
    else if data.length ≤ written then { files, phase := digest filename data .opening }
    else
      let chunk := (data.drop written).take (max 1 count)
      { files := files.write (UInt8.ofNat 0) inode written chunk
        phase := write filename data inode (written + chunk.length) }
  | digest filename data d =>
    match d.next files (basename filename) fault with
    | .raised => { files, phase := done, answer := some (.upload (some (filename, data)), .osError) }
    | .more d => { files, phase := digest filename data d }
    | .done content =>
      { files, phase := done,
        answer := some (.upload (some (filename, data)),
          .uploaded (basename filename) data.length (dir.sha256 content)) }
  | arrived (.delete filename) =>
    if files.isFile (basename filename) then { files, phase := remove filename }
    else { files, phase := done, answer := some (.delete filename, .error "File not found" 404) }
  | remove filename =>
    if fault || !files.isFile (basename filename) then
      { files, phase := done, answer := some (.delete filename, .osError) }
    else
      { files := files.remove (basename filename), phase := done, answer := some (.delete filename, .deleted filename) }
  | arrived .list =>
    if fault then { files, phase := done, answer := some (.list, .osError) }
    else { files, phase := look [] ((files.names ++ dir.subdirs).insertionSort (· ≤ ·)) }
  | look rows [] => { files, phase := done, answer := some (.list, .files rows) }
  | look rows (name :: names) =>
    if files.isFile name then { files, phase := measure rows name names } else { files, phase := look rows names }
  | measure rows name names =>
    match files.content name with
    | some content =>
      if fault then { files, phase := done, answer := some (.list, .osError) }
      else { files, phase := row rows name content.length .opening names }
    | none => { files, phase := done, answer := some (.list, .osError) }
  | row rows name size d names =>
    match d.next files name fault with
    | .raised => { files, phase := done, answer := some (.list, .osError) }
    | .more d => { files, phase := row rows name size d names }
    | .done content => { files, phase := look (rows ++ [⟨name, size, dir.sha256 content⟩]) names }
  | done => { files, phase := done }

end Advance

structure TxStore where
  files : Files UInt8
  requests : List FilePhase := []

inductive FileStep where
  | request (r : FileRequest)
  /-- The next system call of request `i`. -/
  | next (i count : ℕ) (fault : Bool)

namespace TxStore

variable (dir : TxSourceDir)

def step (s : TxStore) : FileStep → TxStore × Option (FileRequest × FileReply)
  | .request r => ({ s with requests := s.requests ++ [.arrived r] }, none)
  | .next i count fault =>
    match s.requests[i]? with
    | some p =>
      let a := p.advance dir s.files count fault
      ({ files := a.files, requests := s.requests.set i a.phase }, a.answer)
    | none => (s, none)

def run (steps : List FileStep) : TxStore := Machine.after (step dir) { files := dir.start } steps

/-- The answered requests, in the order of the answers. -/
def answers (steps : List FileStep) : List (FileRequest × FileReply) :=
  (Machine.outputs (step dir) { files := dir.start } steps).filterMap id

end TxStore

/-! ## One name -/

/-- The request stores or deletes the file `x`. -/
def FileRequest.Changes (x : String) : FileRequest → Prop
  | upload (some (filename, _)) | delete filename => basename filename = x
  | upload none | list => False

/-- A listing shows `x` once and as it is, or not at all. -/
structure ListsRight (sha256 : Bytes → String) (x : String) (c : Option Bytes) (rows : List FileRow) : Prop where
  sorted : (rows.map FileRow.name).Pairwise (· < ·)
  shown : ∀ r, r ∈ rows ∧ r.name = x ↔ ∃ data, c = some data ∧ r = ⟨x, data.length, sha256 data⟩

/-- What a request may do to the file `x` and what it replies then, when it has it for itself. -/
inductive Serves (sha256 : Bytes → String) (x : String) (c : Option Bytes) :
    FileRequest → FileReply → Option Bytes → Prop
  | elsewhere {r : FileRequest} {reply : FileReply} (other : ¬r.Changes x) (no_list : r ≠ .list) :
      Serves sha256 x c r reply c
  | refused {filename : String} {data : Bytes} {text : String} {code : ℕ}
      (bad : filename = "" ∨ txMaxUploadBytes < data.length) :
      Serves sha256 x c (.upload (some (filename, data))) (.error text code) c
  | stored {filename : String} {data : Bytes} (name : basename filename = x) :
      Serves sha256 x c (.upload (some (filename, data))) (.uploaded x data.length (sha256 data)) (some data)
  /-- The file is as it was, or has the beginning of the new content. -/
  | failed {filename : String} {data : Bytes} {c' : Option Bytes} (name : basename filename = x)
      (left_over : c' = c ∨ ∃ n, c' = some (data.take n)) :
      Serves sha256 x c (.upload (some (filename, data))) .osError c'
  | missing {filename : String} (name : basename filename = x) (none : c = none) :
      Serves sha256 x c (.delete filename) (.error "File not found" 404) c
  | deleted {filename : String} (name : basename filename = x) (some : c.isSome) :
      Serves sha256 x c (.delete filename) (.deleted filename) none
  | kept {filename : String} (name : basename filename = x) (some : c.isSome) :
      Serves sha256 x c (.delete filename) .osError c
  | listed {rows : List FileRow} (right : ListsRight sha256 x c rows) : Serves sha256 x c .list (.files rows) c
  | unlisted : Serves sha256 x c .list .osError c

/-- The replies, one after the other, take the file from `c` to `c'`. -/
inductive Served (sha256 : Bytes → String) (x : String) (c : Option Bytes) :
    List (FileRequest × FileReply) → Option Bytes → Prop
  | nil : Served sha256 x c [] c
  | snoc {answered : List (FileRequest × FileReply)} {r : FileRequest} {reply : FileReply} {c' c'' : Option Bytes}
      (before : Served sha256 x c answered c') (serves : Serves sha256 x c' r reply c'') :
      Served sha256 x c (answered ++ [(r, reply)]) c''

namespace FilePhase

/-- An upload that has opened the file `x`, or a removal that has found it. -/
def writes (x : String) : FilePhase → Bool
  | write filename _ _ _ | digest filename _ _ | remove filename => basename filename = x
  | _ => false

def lists : FilePhase → Bool
  | look _ _ | measure _ _ _ | row _ _ _ _ _ => true
  | _ => false

end FilePhase

/-- No upload or removal of `x` is under way beside another or beside a listing. -/
def TxStore.Serial (x : String) (s : TxStore) : Prop :=
  ∀ (i j : ℕ) (p q : FilePhase), i ≠ j → s.requests[i]? = some p → s.requests[j]? = some q →
    p.writes x → q.writes x = false ∧ q.lists = false

namespace TxStore

variable {dir : TxSourceDir} {x : String} {s : TxStore} {c : Option Bytes}

/-! ## What the requests rely on -/

/-- What a digest under way has read is the beginning of the file. -/
def DigestRight (files : Files UInt8) (x : String) (data : Bytes) : Digest → Prop
  | .opening => True
  | .reading inode seen => files.inode x = some inode ∧ seen <+: data

/-- Where the one that changes `x` is. -/
def WriterRight (files : Files UInt8) (x : String) (c : Option Bytes) : FilePhase → Prop
  | .write _ data inode written =>
    files.inode x = some inode ∧ files.bytes inode = data.take written ∧ written ≤ data.length
  | .digest _ data d => files.content x = some data ∧ DigestRight files x data d
  | .remove _ => files.content x = c ∧ c.isSome
  | _ => True

/-- What a listing has of `x` and will find of it. -/
structure RowsRight (sha256 : Bytes → String) (x : String) (c : Option Bytes) (rows : List FileRow)
    (names : List String) : Prop where
  sorted : (rows.map FileRow.name ++ names).Pairwise (· < ·)
  right : ∀ r ∈ rows, r.name = x → ∃ data, c = some data ∧ r = ⟨x, data.length, sha256 data⟩
  coming : c.isSome → x ∈ rows.map FileRow.name ++ names

def ListerRight (sha256 : Bytes → String) (files : Files UInt8) (x : String) (c : Option Bytes) : FilePhase → Prop
  | .look rows names => RowsRight sha256 x c rows names
  | .measure rows name names => RowsRight sha256 x c rows (name :: names)
  | .row rows name size d names => RowsRight sha256 x c rows (name :: names) ∧
      (name = x → ∃ data, c = some data ∧ size = data.length ∧ DigestRight files x data d)
  | _ => True

/-- The directory agrees with `c` on the file `x`. -/
structure Agrees (dir : TxSourceDir) (x : String) (c : Option Bytes) (s : TxStore) : Prop where
  dirs : ∀ y, dir.isDir y → s.files.inode y = none
  owned : ∀ (i : ℕ) (filename : String) (data : Bytes) (inode written : ℕ),
    s.requests[i]? = some (.write filename data inode written) → s.files.Owned inode (basename filename)
  quiet : (∀ (i : ℕ) (p : FilePhase), s.requests[i]? = some p → p.writes x = false) → s.files.content x = c
  writer : ∀ (i : ℕ) (p : FilePhase), s.requests[i]? = some p → p.writes x → WriterRight s.files x c p
  lister : ∀ (i : ℕ) (p : FilePhase), s.requests[i]? = some p → ListerRight dir.sha256 s.files x c p

/-! ## One system call -/

/-- What a system call of a digest leads to. -/
def HashedRight (files : Files UInt8) (x : String) (data : Bytes) : Hashed → Prop
  | .raised => True
  | .more d => DigestRight files x data d
  | .done seen => seen = data

theorem hashedRight_next {files : Files UInt8} {data : Bytes} {d : Digest} (content : files.content x = some data)
    (right : DigestRight files x data d) (fault : Bool) : HashedRight files x data (d.next files x fault) := by
  obtain ⟨inode, here, bytes⟩ := Option.map_eq_some_iff.1 content
  cases d with
  | opening =>
    simp only [Digest.next, here]
    split
    · trivial
    · exact ⟨here, List.nil_prefix⟩
  | reading inode' seen =>
    obtain ⟨here', rest, rfl⟩ := right
    cases here'.symm.trans here
    simp only [Digest.next, bytes, List.drop_left]
    split
    · trivial
    · split
      next ended =>
        rcases List.take_eq_nil_iff.1 ended with zero | nil
        · cases zero
        · rw [nil, List.append_nil]
          rfl
      next => exact ⟨here, (List.prefix_append_right_inj seen).2 (List.take_prefix _ _)⟩

section Moves

variable {files : Files UInt8} {i : ℕ} {p p' : FilePhase}

theorem getElem?_set (here : s.requests[i]? = some p) {j : ℕ} {q : FilePhase}
    (there : (s.requests.set i p')[j]? = some q) : (j = i ∧ q = p') ∨ (j ≠ i ∧ s.requests[j]? = some q) := by
  rw [List.getElem?_set] at there
  split at there
  next same =>
    subst same
    rw [if_pos (List.getElem?_eq_some_iff.1 here).1] at there
    simp only [Option.some.injEq] at there
    exact .inl ⟨rfl, there.symm⟩
  next other => exact .inr ⟨Ne.symm other, there⟩

theorem digestRight_same (same : Files.Same x s.files files) {data : Bytes} {d : Digest}
    (right : DigestRight s.files x data d) : DigestRight files x data d := by
  cases d with
  | opening => trivial
  | reading inode seen => exact ⟨same.inode.trans right.1, right.2⟩

theorem writerRight_same (same : Files.Same x s.files files) (right : WriterRight s.files x c p) :
    WriterRight files x c p := by
  cases p with
  | write filename data inode written =>
    exact ⟨same.inode.trans right.1, (same.bytes inode right.1).trans right.2.1, right.2.2⟩
  | digest filename data d => exact ⟨same.content.trans right.1, digestRight_same same right.2⟩
  | remove filename => exact ⟨same.content.trans right.1, right.2⟩
  | _ => trivial

theorem listerRight_same (same : Files.Same x s.files files) (right : ListerRight dir.sha256 s.files x c p) :
    ListerRight dir.sha256 files x c p := by
  cases p with
  | row rows name size d names =>
    refine ⟨right.1, ?_⟩
    intro here
    obtain ⟨data, current, length, read⟩ := right.2 here
    exact ⟨data, current, length, digestRight_same same read⟩
  | look rows names => exact right
  | measure rows name names => exact right
  | _ => trivial

theorem listerRight_of_not_lists (not_lists : p.lists = false) : ListerRight dir.sha256 files x c p := by
  cases p with
  | look | measure | row => cases not_lists
  | _ => trivial

theorem not_lists_of_writes (writes : p.writes x) : p.lists = false := by
  cases p with
  | look | measure | row => cases writes
  | _ => rfl

/-- What a step leaves of the directory as a whole. -/
structure Keeps (dir : TxSourceDir) (s : TxStore) (files : Files UInt8) (p' : FilePhase) : Prop where
  dirs : ∀ y, dir.isDir y → files.inode y = none
  owned : ∀ (inode : ℕ) (y : String), s.files.Owned inode y → files.Owned inode y
  opened : ∀ (filename : String) (data : Bytes) (inode written : ℕ),
    p' = .write filename data inode written → files.Owned inode (basename filename)

theorem Keeps.owned' (keeps : Keeps dir s files p') (h : Agrees dir x c s) (here : s.requests[i]? = some p)
    (j : ℕ) (filename : String) (data : Bytes) (inode written : ℕ)
    (there : (s.requests.set i p')[j]? = some (.write filename data inode written)) :
    files.Owned inode (basename filename) := by
  rcases getElem?_set here there with ⟨-, same⟩ | ⟨-, before⟩
  · exact keeps.opened filename data inode written same.symm
  · exact keeps.owned inode _ (h.owned j filename data inode written before)

/-- A step that is not about `x`. -/
theorem Agrees.moved (h : Agrees dir x c s) (here : s.requests[i]? = some p) (keeps : Keeps dir s files p')
    (same : Files.Same x s.files files) (quiet : p.writes x = false) (quiet' : p'.writes x = false)
    (lister : ListerRight dir.sha256 files x c p') : Agrees dir x c ⟨files, s.requests.set i p'⟩ := by
  refine ⟨keeps.dirs, keeps.owned' h here, ?_, ?_, ?_⟩
  · intro nobody
    refine same.content.trans (h.quiet ?_)
    intro j q there
    by_cases at_i : j = i
    · subst at_i
      cases here.symm.trans there
      exact quiet
    · exact nobody j q ((List.getElem?_set_ne (Ne.symm at_i)).trans there)
  · intro j q there writes
    rcases getElem?_set here there with ⟨-, rfl⟩ | ⟨-, before⟩
    · rw [quiet'] at writes
      cases writes
    · exact writerRight_same same (h.writer j q before writes)
  · intro j q there
    rcases getElem?_set here there with ⟨-, rfl⟩ | ⟨-, before⟩
    · exact lister
    · exact listerRight_same same (h.lister j q before)

/-- A step of the one that changes `x`. -/
theorem Agrees.wrote (h : Agrees dir x c s) (here : s.requests[i]? = some p) (keeps : Keeps dir s files p')
    (serial : Serial x ⟨files, s.requests.set i p'⟩) (writes : p'.writes x) (right : WriterRight files x c p') :
    Agrees dir x c ⟨files, s.requests.set i p'⟩ := by
  have at_i : (s.requests.set i p')[i]? = some p' :=
    List.getElem?_set_self (List.getElem?_eq_some_iff.1 here).1
  refine ⟨keeps.dirs, keeps.owned' h here, ?_, ?_, ?_⟩
  · intro nobody
    rw [nobody i p' at_i] at writes
    cases writes
  · intro j q there writes'
    by_cases same : i = j
    · subst same
      cases at_i.symm.trans there
      exact right
    · rw [(serial i j p' q same at_i there writes).1] at writes'
      cases writes'
  · intro j q there
    by_cases same : i = j
    · subst same
      cases at_i.symm.trans there
      exact listerRight_of_not_lists (not_lists_of_writes writes)
    · exact listerRight_of_not_lists (serial i j p' q same at_i there writes).2

/-- Its last step. -/
theorem Agrees.ended (h : Agrees dir x c s) (here : s.requests[i]? = some p) (keeps : Keeps dir s files .done)
    (serial : s.Serial x) (writes : p.writes x) {c' : Option Bytes} (content : files.content x = c') :
    Agrees dir x c' ⟨files, s.requests.set i .done⟩ := by
  refine ⟨keeps.dirs, keeps.owned' h here, fun _ => content, ?_, ?_⟩
  · intro j q there writes'
    rcases getElem?_set here there with ⟨-, rfl⟩ | ⟨other, before⟩
    · cases writes'
    · rw [(serial i j p q (Ne.symm other) here before writes).1] at writes'
      cases writes'
  · intro j q there
    rcases getElem?_set here there with ⟨-, rfl⟩ | ⟨other, before⟩
    · trivial
    · exact listerRight_of_not_lists (serial i j p q (Ne.symm other) here before writes).2

/-- Beside a listing the file is as it was. -/
theorem Agrees.content_of_lists (h : Agrees dir x c s) (serial : s.Serial x) (here : s.requests[i]? = some p)
    (lists : p.lists) : s.files.content x = c := by
  apply h.quiet
  intro j q there
  by_contra writes
  rw [Bool.not_eq_false] at writes
  have other : j ≠ i := by
    rintro rfl
    cases here.symm.trans there
    rw [not_lists_of_writes writes] at lists
    cases lists
  rw [(serial j i q p other there here writes).2] at lists
  cases lists

end Moves

/-! ## The requests -/

/-- The file goes from `c` to `c'`, with the answer that is given if any. -/
def Goes (dir : TxSourceDir) (x : String) (c c' : Option Bytes) : Option (FileRequest × FileReply) → Prop
  | none => c' = c
  | some (r, reply) => Serves dir.sha256 x c r reply c'

section Requests

variable {i : ℕ} {p : FilePhase} {count : ℕ} {fault : Bool} {filename : String} {data : Bytes}

/-- The store behind the next system call of request `i`. -/
def advanced (dir : TxSourceDir) (s : TxStore) (i count : ℕ) (fault : Bool) (p : FilePhase) : TxStore :=
  ⟨(p.advance dir s.files count fault).files, s.requests.set i (p.advance dir s.files count fault).phase⟩

/-- The call of request `i` keeps the agreement, with the answer it gives. -/
def Advances (dir : TxSourceDir) (x : String) (c : Option Bytes) (s : TxStore) (i count : ℕ) (fault : Bool)
    (p : FilePhase) : Prop :=
  ∃ c', Agrees dir x c' (advanced dir s i count fault p) ∧ Goes dir x c c' (p.advance dir s.files count fault).answer

theorem Agrees.keeps {p' : FilePhase} (h : Agrees dir x c s)
    (no_write : ∀ filename data inode written, p' ≠ .write filename data inode written) :
    Keeps dir s s.files p' :=
  ⟨h.dirs, fun _ _ => id, fun filename data inode written same => absurd same (no_write filename data inode written)⟩

/-- A call that leaves the files as they are. -/
theorem Agrees.passes {p' : FilePhase} (h : Agrees dir x c s) (here : s.requests[i]? = some p)
    (no_write : ∀ filename data inode written, p' ≠ .write filename data inode written)
    (quiet : p.writes x = false) (quiet' : p'.writes x = false) (lister : ListerRight dir.sha256 s.files x c p') :
    Agrees dir x c ⟨s.files, s.requests.set i p'⟩ :=
  h.moved here (h.keeps no_write) .refl quiet quiet' lister

/-- An answer to a request for another file. -/
theorem serves_other {reply : FileReply} (other : basename filename ≠ x) :
    Serves dir.sha256 x c (.upload (some (filename, data))) reply c :=
  .elsewhere other (by simp)

theorem Agrees.uploadArrived (h : Agrees dir x c s)
    (here : s.requests[i]? = some (.arrived (.upload (some (filename, data))))) :
    Advances dir x c s i count fault (.arrived (.upload (some (filename, data)))) := by
  simp only [Advances, advanced, FilePhase.advance]
  split
  next empty => exact ⟨c, h.passes here (by simp) rfl rfl trivial, .refused (.inl empty)⟩
  next =>
    split
    next large => exact ⟨c, h.passes here (by simp) rfl rfl trivial, .refused (.inr large)⟩
    next => exact ⟨c, h.passes here (by simp) rfl rfl trivial, rfl⟩

theorem Agrees.create (h : Agrees dir x c s) (here : s.requests[i]? = some (.create filename data))
    (serial : Serial x (advanced dir s i count fault (.create filename data))) :
    Advances dir x c s i count fault (.create filename data) := by
  simp only [Advances, advanced, FilePhase.advance] at serial ⊢
  split
  next failed =>
    refine ⟨c, h.passes here (by simp) rfl rfl trivial, ?_⟩
    by_cases name : basename filename = x
    · exact .failed name (.inl rfl)
    · exact serves_other name
  next free =>
    rw [if_neg free] at serial
    refine ⟨c, ?_, rfl⟩
    rw [Bool.or_eq_true, not_or] at free
    have linked := Files.openNew_inode (d := s.files) (x := basename filename)
    have keeps : Keeps dir s (s.files.openNew (basename filename)).1
        (.write filename data (s.files.openNew (basename filename)).2 0) := by
      refine ⟨?_, fun _ _ owned => owned.openNew, ?_⟩
      · intro y isDir
        have other : y ≠ basename filename := by
          rintro rfl
          exact free.2 isDir
        exact (Files.same_openNew other).inode.trans (h.dirs y isDir)
      · rintro _ _ _ _ ⟨⟩
        exact Files.owned_of_inode linked
    by_cases name : basename filename = x
    · subst name
      exact h.wrote here keeps serial (decide_eq_true rfl) ⟨linked, Files.openNew_bytes, Nat.zero_le _⟩
    · exact h.moved here keeps (Files.same_openNew (Ne.symm name)) rfl (decide_eq_false name) trivial

theorem Agrees.write {inode written : ℕ} (h : Agrees dir x c s)
    (here : s.requests[i]? = some (.write filename data inode written)) (before : s.Serial x)
    (serial : Serial x (advanced dir s i count fault (.write filename data inode written))) :
    Advances dir x c s i count fault (.write filename data inode written) := by
  have owned := h.owned i filename data inode written here
  by_cases name : basename filename = x
  · have writes : (FilePhase.write filename data inode written).writes x := decide_eq_true name
    obtain ⟨linked, bytes, length⟩ := h.writer i _ here writes
    have content : s.files.content x = some (data.take written) := by
      rw [Files.content, linked, Option.map_some, bytes]
    simp only [Advances, advanced, FilePhase.advance] at serial ⊢
    split
    next => exact ⟨_, h.ended here (h.keeps (by simp)) before writes content, .failed name (.inr ⟨written, rfl⟩)⟩
    next no_fault =>
      rw [if_neg no_fault] at serial
      split
      next all =>
        rw [if_pos all] at serial
        rw [List.take_of_length_le all] at content
        exact ⟨c, h.wrote here (h.keeps (by simp)) serial writes ⟨content, trivial⟩, rfl⟩
      next more =>
        rw [if_neg more] at serial
        refine ⟨c, h.wrote here ⟨h.dirs, fun _ _ => id, ?_⟩ serial writes ⟨linked, ?_, ?_⟩, rfl⟩
        · rintro _ _ _ _ ⟨⟩
          exact owned
        · -- the bytes go behind those that are there
          have offset : written = (s.files.bytes inode).length := by
            rw [bytes, List.length_take, min_eq_left length]
          rw [Files.write]
          refine (Function.update_self ..).trans ?_
          conv_lhs => rw [offset]
          rw [overwrite_end, ← offset, bytes, List.length_take, List.take_add, List.take_eq_take_min]
          simp
        · simp only [List.length_take, List.length_drop]
          omega
  · have quiet : (FilePhase.write filename data inode written).writes x = false := decide_eq_false name
    simp only [Advances, advanced, FilePhase.advance]
    split
    next => exact ⟨c, h.passes here (by simp) quiet rfl trivial, serves_other name⟩
    next =>
      split
      next => exact ⟨c, h.passes here (by simp) quiet quiet trivial, rfl⟩
      next =>
        refine ⟨c, h.moved here ⟨h.dirs, fun _ _ => id, ?_⟩ (Files.same_set owned (Ne.symm name) _) quiet quiet
          trivial, rfl⟩
        rintro _ _ _ _ ⟨⟩
        exact owned

theorem Agrees.digest {d : Digest} (h : Agrees dir x c s) (here : s.requests[i]? = some (.digest filename data d))
    (before : s.Serial x) (serial : Serial x (advanced dir s i count fault (.digest filename data d))) :
    Advances dir x c s i count fault (.digest filename data d) := by
  by_cases name : basename filename = x
  · have writes : (FilePhase.digest filename data d).writes x := decide_eq_true name
    obtain ⟨content, right⟩ := h.writer i _ here writes
    have next := hashedRight_next content right fault
    simp only [Advances, advanced, FilePhase.advance, name] at serial ⊢
    generalize d.next s.files x fault = result at *
    cases result with
    | raised =>
      refine ⟨some data, h.ended here (h.keeps (by simp)) before writes content, .failed name (.inr ⟨data.length, ?_⟩)⟩
      rw [List.take_length]
    | more d' => exact ⟨c, h.wrote here (h.keeps (by simp)) serial writes ⟨content, next⟩, rfl⟩
    | done seen =>
      cases next
      exact ⟨some data, h.ended here (h.keeps (by simp)) before writes content, .stored name⟩
  · have quiet : (FilePhase.digest filename data d).writes x = false := decide_eq_false name
    simp only [Advances, advanced, FilePhase.advance]
    cases d.next s.files (basename filename) fault with
    | raised => exact ⟨c, h.passes here (by simp) quiet rfl trivial, serves_other name⟩
    | more d' => exact ⟨c, h.passes here (by simp) quiet quiet trivial, rfl⟩
    | done seen => exact ⟨c, h.passes here (by simp) quiet rfl trivial, serves_other name⟩

/-- Whoever changes a file has found it. -/
theorem WriterRight.isFile {p : FilePhase} (right : WriterRight s.files x c p) (writes : p.writes x) :
    s.files.isFile x := by
  have of_content : (s.files.content x).isSome → s.files.isFile x := by
    rw [Files.content, Option.isSome_map]
    exact id
  cases p with
  | write filename data inode written =>
    rw [Files.isFile, right.1]
    rfl
  | digest filename data d =>
    apply of_content
    rw [right.1]
    rfl
  | remove filename =>
    apply of_content
    rw [right.1]
    exact right.2
  | _ => cases writes

theorem Agrees.deleteArrived (h : Agrees dir x c s) (here : s.requests[i]? = some (.arrived (.delete filename)))
    (serial : Serial x (advanced dir s i count fault (.arrived (.delete filename)))) :
    Advances dir x c s i count fault (.arrived (.delete filename)) := by
  simp only [Advances, advanced, FilePhase.advance] at serial ⊢
  split
  next found =>
    rw [if_pos found] at serial
    refine ⟨c, ?_, rfl⟩
    by_cases name : basename filename = x
    · subst name
      have writes : (FilePhase.remove filename).writes (basename filename) := decide_eq_true rfl
      -- nobody else can be at this file
      have content : s.files.content (basename filename) = c := by
        apply h.quiet
        intro j q there
        by_cases same : i = j
        · subst same
          cases here.symm.trans there
          rfl
        · exact (serial i j _ q same (List.getElem?_set_self (List.getElem?_eq_some_iff.1 here).1)
            ((List.getElem?_set_ne same).trans there) writes).1
      refine h.wrote here (h.keeps (by simp)) serial writes ⟨content, ?_⟩
      rw [← content, Files.content, Option.isSome_map]
      exact found
    · exact h.passes here (by simp) rfl (decide_eq_false name) trivial
  next absent =>
    refine ⟨c, h.passes here (by simp) rfl rfl trivial, ?_⟩
    by_cases name : basename filename = x
    · subst name
      have content : s.files.content (basename filename) = c := by
        apply h.quiet
        intro j q there
        rw [← Bool.not_eq_true]
        intro writes
        exact absent ((h.writer j q there writes).isFile writes)
      refine .missing rfl ?_
      rw [← content, Files.content, Option.map_eq_none_iff]
      exact Option.not_isSome_iff_eq_none.1 absent
    · exact .elsewhere name (by simp)

theorem Agrees.keeps_remove {y : String} (h : Agrees dir x c s) : Keeps dir s (s.files.remove y) .done := by
  refine ⟨?_, fun _ _ owned => owned.remove, by simp⟩
  intro z isDir
  by_cases same : z = y
  · rw [same]
    exact Function.update_self ..
  · exact (Files.same_remove same).inode.trans (h.dirs z isDir)

theorem Agrees.remove (h : Agrees dir x c s) (here : s.requests[i]? = some (.remove filename))
    (before : s.Serial x) : Advances dir x c s i count fault (.remove filename) := by
  by_cases name : basename filename = x
  · have writes : (FilePhase.remove filename).writes x := decide_eq_true name
    obtain ⟨content, some⟩ := h.writer i _ here writes
    simp only [Advances, advanced, FilePhase.advance]
    split
    next => exact ⟨c, h.ended here (h.keeps (by simp)) before writes content, .kept name some⟩
    next =>
      refine ⟨none, h.ended here h.keeps_remove before writes ?_, .deleted name some⟩
      rw [name]
      exact Files.content_remove
  · have quiet : (FilePhase.remove filename).writes x = false := decide_eq_false name
    simp only [Advances, advanced, FilePhase.advance]
    split
    next => exact ⟨c, h.passes here (by simp) quiet rfl trivial, .elsewhere name (by simp)⟩
    next =>
      exact ⟨c, h.moved here h.keeps_remove (Files.same_remove (Ne.symm name)) quiet rfl trivial,
        .elsewhere name (by simp)⟩

/-! ## The listing -/

variable {rows : List FileRow} {name : String} {names : List String}

/-- The names in sorted order, each of them once. -/
theorem sorted_names (h : Agrees dir x c s) :
    ((s.files.names ++ dir.subdirs).insertionSort (· ≤ ·)).Pairwise (· < ·) := by
  have nodup : (s.files.names ++ dir.subdirs).Nodup := by
    refine List.nodup_append.2 ⟨s.files.nodup, dir.nodup, ?_⟩
    rintro y file _ sub rfl
    have isFile := (s.files.listed y).1 file
    rw [h.dirs y (decide_eq_true (.inl sub))] at isFile
    cases isFile
  have sorted := List.pairwise_insertionSort (· ≤ ·) (s.files.names ++ dir.subdirs)
  have apart := (List.perm_insertionSort (· ≤ ·) (s.files.names ++ dir.subdirs)).nodup_iff.2 nodup
  exact (sorted.and apart).imp fun pair => lt_of_le_of_ne pair.1 pair.2

theorem Agrees.listArrived (h : Agrees dir x c s) (here : s.requests[i]? = some (.arrived .list))
    (serial : Serial x (advanced dir s i count fault (.arrived .list))) :
    Advances dir x c s i count fault (.arrived .list) := by
  simp only [Advances, advanced, FilePhase.advance] at serial ⊢
  split
  next => exact ⟨c, h.passes here (by simp) rfl rfl trivial, .unlisted⟩
  next no_fault =>
    rw [if_neg no_fault] at serial
    refine ⟨c, h.passes here (by simp) rfl rfl ⟨sorted_names h, by simp, ?_⟩, rfl⟩
    intro some
    have content : s.files.content x = c := by
      apply h.quiet
      intro j q there
      by_contra writes
      rw [Bool.not_eq_false] at writes
      have other : j ≠ i := by
        rintro rfl
        cases here.symm.trans there
        cases writes
      have lists := (serial j i q _ other ((List.getElem?_set_ne (Ne.symm other)).trans there)
        (List.getElem?_set_self (List.getElem?_eq_some_iff.1 here).1) writes).2
      cases lists
    rw [← content, Files.content, Option.isSome_map] at some
    rw [List.map_nil, List.nil_append, List.mem_insertionSort, List.mem_append]
    exact .inl ((s.files.listed x).2 some)

theorem listsRight_of_rowsRight (right : RowsRight dir.sha256 x c rows []) : ListsRight dir.sha256 x c rows := by
  obtain ⟨sorted, right, coming⟩ := right
  rw [List.append_nil] at sorted coming
  refine ⟨sorted, ?_⟩
  intro r
  constructor
  · rintro ⟨mem, name⟩
    exact right r mem name
  · rintro ⟨data, rfl, rfl⟩
    obtain ⟨r, mem, name⟩ := List.mem_map.1 (coming rfl)
    obtain ⟨data', same, rfl⟩ := right r mem name
    cases same
    exact ⟨mem, rfl⟩

theorem Agrees.look (h : Agrees dir x c s) (here : s.requests[i]? = some (.look rows names))
    (before : s.Serial x) : Advances dir x c s i count fault (.look rows names) := by
  have right : RowsRight dir.sha256 x c rows names := h.lister i _ here
  have content := h.content_of_lists before here rfl
  cases names with
  | nil =>
    simp only [Advances, advanced, FilePhase.advance]
    exact ⟨c, h.passes here (by simp) rfl rfl trivial, .listed (listsRight_of_rowsRight right)⟩
  | cons name names =>
    simp only [Advances, advanced, FilePhase.advance]
    split
    next => exact ⟨c, h.passes here (by simp) rfl rfl right, rfl⟩
    next no_file =>
      obtain ⟨sorted, right, coming⟩ := right
      refine ⟨c, h.passes here (by simp) rfl rfl ⟨sorted.sublist ?_, right, ?_⟩, rfl⟩
      · exact (List.sublist_cons_self name names).append_left _
      · intro some
        have mem := coming some
        rw [List.mem_append, List.mem_cons] at mem
        rw [List.mem_append]
        rcases mem with old | rfl | later
        · exact .inl old
        · rw [← content, Files.content, Option.isSome_map] at some
          exact absurd some no_file
        · exact .inr later

theorem Agrees.measure (h : Agrees dir x c s) (here : s.requests[i]? = some (.measure rows name names))
    (before : s.Serial x) : Advances dir x c s i count fault (.measure rows name names) := by
  have right : RowsRight dir.sha256 x c rows (name :: names) := h.lister i _ here
  have content := h.content_of_lists before here rfl
  simp only [Advances, advanced, FilePhase.advance]
  cases measured : s.files.content name with
  | none => exact ⟨c, h.passes here (by simp) rfl rfl trivial, .unlisted⟩
  | some data =>
    dsimp only
    split
    next => exact ⟨c, h.passes here (by simp) rfl rfl trivial, .unlisted⟩
    next =>
      refine ⟨c, h.passes here (by simp) rfl rfl ⟨right, ?_⟩, rfl⟩
      rintro rfl
      exact ⟨data, content.symm.trans measured, rfl, trivial⟩

theorem Agrees.row {size : ℕ} {d : Digest} (h : Agrees dir x c s)
    (here : s.requests[i]? = some (.row rows name size d names)) (before : s.Serial x) :
    Advances dir x c s i count fault (.row rows name size d names) := by
  obtain ⟨right, reads⟩ : ListerRight dir.sha256 s.files x c (.row rows name size d names) := h.lister i _ here
  have content := h.content_of_lists before here rfl
  have next : name = x → ∃ data, c = some data ∧ size = data.length ∧
      HashedRight s.files x data (d.next s.files name fault) := by
    rintro rfl
    obtain ⟨data, current, length, read⟩ := reads rfl
    exact ⟨data, current, length, hashedRight_next (content.trans current) read fault⟩
  simp only [Advances, advanced, FilePhase.advance]
  generalize d.next s.files name fault = result at next
  cases result with
  | raised => exact ⟨c, h.passes here (by simp) rfl rfl trivial, .unlisted⟩
  | more d' => exact ⟨c, h.passes here (by simp) rfl rfl ⟨right, next⟩, rfl⟩
  | done seen =>
    obtain ⟨sorted, right, coming⟩ := right
    have same : (rows ++ [(⟨name, size, dir.sha256 seen⟩ : FileRow)]).map FileRow.name ++ names
        = rows.map FileRow.name ++ name :: names := by
      simp
    refine ⟨c, h.passes here (by simp) rfl rfl ⟨?_, ?_, ?_⟩, rfl⟩
    · rw [same]
      exact sorted
    · intro r mem isX
      rcases List.mem_append.1 mem with old | new
      · exact right r old isX
      · rw [List.mem_singleton] at new
        subst new
        obtain ⟨data, current, length, all⟩ := next isX
        have all : seen = data := all
        exact ⟨data, current, by rw [← length, ← isX, all]⟩
    · rw [same]
      exact coming

/-- **Any system call** of a request. -/
theorem Agrees.advance (h : Agrees dir x c s) (here : s.requests[i]? = some p) (before : s.Serial x)
    (serial : Serial x (advanced dir s i count fault p)) : Advances dir x c s i count fault p := by
  cases p with
  | arrived r =>
    cases r with
    | upload file =>
      cases file with
      | none => exact ⟨c, h.passes here (by simp [FilePhase.advance]) rfl rfl trivial, .elsewhere id (by simp)⟩
      | some file => exact h.uploadArrived here
    | delete filename => exact h.deleteArrived here serial
    | list => exact h.listArrived here serial
  | create filename data => exact h.create here serial
  | write filename data inode written => exact h.write here before serial
  | digest filename data d => exact h.digest here before serial
  | remove filename => exact h.remove here before
  | look rows names => exact h.look here before
  | measure rows name names => exact h.measure here before
  | row rows name size d names => exact h.row here before
  | done => exact ⟨c, h.passes here (by simp [FilePhase.advance]) rfl rfl trivial, rfl⟩

end Requests

/-! ## Every run -/

theorem Agrees.step (h : Agrees dir x c s) (before : s.Serial x) (e : FileStep)
    (serial : (s.step dir e).1.Serial x) :
    ∃ c', Agrees dir x c' (s.step dir e).1 ∧ Goes dir x c c' (s.step dir e).2 := by
  cases e with
  | request r =>
    have old : ∀ {j : ℕ} {q : FilePhase}, (s.requests ++ [.arrived r])[j]? = some q →
        s.requests[j]? = some q ∨ q = .arrived r := by
      intro j q there
      rw [List.getElem?_append] at there
      split at there
      · exact .inl there
      · exact .inr (List.mem_singleton.1 (List.mem_of_getElem? there))
    refine ⟨c, ⟨h.dirs, ?_, ?_, ?_, ?_⟩, rfl⟩
    · intro j filename data inode written there
      rcases old there with before | new
      · exact h.owned j filename data inode written before
      · cases new
    · intro nobody
      apply h.quiet
      intro j q there
      exact nobody j q (List.getElem?_append_left (List.getElem?_eq_some_iff.1 there).1 ▸ there)
    · intro j q there writes
      rcases old there with before | rfl
      · exact h.writer j q before writes
      · cases writes
    · intro j q there
      rcases old there with before | rfl
      · exact h.lister j q before
      · trivial
  | next i count fault =>
    unfold TxStore.step at serial ⊢
    dsimp only at serial ⊢
    cases here : s.requests[i]? with
    | none => exact ⟨c, h, rfl⟩
    | some p =>
      simp only [here] at serial
      exact h.advance here before serial

theorem run_snoc (steps : List FileStep) (e : FileStep) :
    run dir (steps ++ [e]) = ((run dir steps).step dir e).1 := Machine.after_snoc _ _ steps e

theorem answers_snoc (steps : List FileStep) (e : FileStep) :
    answers dir (steps ++ [e]) = answers dir steps ++ ((run dir steps).step dir e).2.toList := by
  rw [answers, answers, Machine.outputs_snoc, List.filterMap_append, ← run]
  cases ((run dir steps).step dir e).2 <;> rfl

/-- No upload or removal of `x` overlaps another or a listing. -/
def SerialRun (dir : TxSourceDir) (x : String) (steps : List FileStep) : Prop :=
  ∀ before after, steps = before ++ after → (run dir before).Serial x

theorem agrees_run {steps : List FileStep} (serial : SerialRun dir x steps) :
    ∃ c, Agrees dir x c (run dir steps) ∧ Served dir.sha256 x (dir.start.content x) (answers dir steps) c := by
  induction steps using List.reverseRecOn with
  | nil =>
    refine ⟨_, ⟨?_, by simp [run], fun _ => rfl, by simp [run], by simp [run]⟩, .nil⟩
    intro y isDir
    rcases of_decide_eq_true isDir with sub | named
    · exact dir.apart y sub
    · exact (dir.named y named).1
  | append_singleton steps e ih =>
    obtain ⟨c, agrees, served⟩ := ih fun before after split =>
      serial before (after ++ [e]) (by rw [split, List.append_assoc])
    have here := serial steps [e] rfl
    have next := serial (steps ++ [e]) [] (List.append_nil _).symm
    rw [run_snoc] at next ⊢
    obtain ⟨c', agrees', goes⟩ := agrees.step here e next
    refine ⟨c', agrees', ?_⟩
    rw [answers_snoc]
    cases answer : ((run dir steps).step dir e).2 with
    | none =>
      rw [answer] at goes
      rw [Option.toList_none, List.append_nil, show c' = c from goes]
      exact served
    | some a =>
      rw [answer] at goes
      exact .snoc served goes

/-- Two requests that may not be side by side. -/
def clash (x : String) (p q : FilePhase) : Bool := p.writes x && (q.writes x || q.lists)

theorem serialRun_of_check {steps : List FileStep}
    (check : ∀ k ≤ steps.length, (run dir (steps.take k)).requests.Pairwise fun p q =>
      clash x p q = false ∧ clash x q p = false) : SerialRun dir x steps := by
  rintro before after rfl i j p q other here there writes
  have apart := check before.length (by simp)
  rw [List.take_left, List.pairwise_iff_getElem] at apart
  obtain ⟨i_lt, rfl⟩ := List.getElem?_eq_some_iff.1 here
  obtain ⟨j_lt, rfl⟩ := List.getElem?_eq_some_iff.1 there
  have free : clash x (run dir before).requests[i] (run dir before).requests[j] = false := by
    rcases Nat.lt_or_gt_of_ne other with lt | gt
    · exact (apart i j i_lt j_lt lt).1
    · exact (apart j i j_lt i_lt gt).2
  rw [clash, writes, Bool.true_and, Bool.or_eq_false_iff] at free
  exact free

end TxStore

open TxStore in
/-- **A file of the store is a cell.** For every directory the process may find and every run of uploads,
removals and listings in which no upload or removal of `x` overlaps another or a listing, with the requests
for other files anywhere in between and with calls that fail: the replies, in order, are those of a cell for
`x` that each request reads and writes in one piece, and when no upload or removal of `x` is under way the
file is what the cell has. -/
theorem files_served (dir : TxSourceDir) (x : String) (steps : List FileStep) (serial : SerialRun dir x steps) :
    ∃ c, Served dir.sha256 x (dir.start.content x) (answers dir steps) c ∧
      ((∀ p ∈ (run dir steps).requests, p.writes x = false) → (run dir steps).files.content x = c) := by
  obtain ⟨c, agrees, served⟩ := agrees_run serial
  refine ⟨c, served, ?_⟩
  intro nobody
  exact agrees.quiet fun i p here => nobody p (List.mem_of_getElem? here)

section Runs

open TxStore

/-- An empty directory, and the size for a hash. -/
def emptyDir : TxSourceDir where sha256 data := toString data.length

/-- Two uploads side by side, and then a listing. -/
def sideBySide : List FileStep :=
  [.request (.upload (some ("a", [7]))), .request (.upload (some ("b", [8, 9]))), .request .list] ++
    (List.replicate 7 [FileStep.next 0 1 false, .next 1 1 false]).flatten ++ [.next 1 1 false] ++
    List.replicate 12 (.next 2 1 false)

theorem files_served_sideBySide :
    ∃ c, Served emptyDir.sha256 "a" none (answers emptyDir sideBySide) c ∧
      (run emptyDir sideBySide).files.content "a" = c := by
  obtain ⟨c, served, content⟩ := files_served emptyDir "a" sideBySide (serialRun_of_check (by decide))
  exact ⟨c, served, content (by decide)⟩

-- Uploads of one name that overlap: the first is told the hash of the second.
example :
    answers emptyDir ([.request (.upload (some ("a", [7]))), .request (.upload (some ("a", [8, 9])))] ++
        List.replicate 3 (.next 0 1 false) ++ List.replicate 8 (.next 1 1 false) ++
        List.replicate 4 (.next 0 1 false))
      = [(.upload (some ("a", [8, 9])), .uploaded "a" 2 "2"), (.upload (some ("a", [7])), .uploaded "a" 1 "2")] := by
  decide

end Runs

end StreamWeb
