import Mathlib.Data.List.Nodup
import Mathlib.Logic.Function.Basic

/-!
# Files behind names

A directory of regular files as a table from names to inodes, and the inodes'
contents. A file that is open stays what it is when its name is taken away, and
no inode is used twice. `Files.Owned` says under which name alone a change of an
inode can be seen, and `Files.Same` what the other names' changes leave of one.
-/

namespace PosixFiles

variable {β : Type}

/-- Bytes written at an offset, behind zeros where the file is shorter. -/
def overwrite (zero : β) (old : List β) (offset : ℕ) (bytes : List β) : List β :=
  old.take offset ++ List.replicate (offset - old.length) zero ++ bytes ++ old.drop (offset + bytes.length)

theorem overwrite_end (zero : β) (old bytes : List β) : overwrite zero old old.length bytes = old ++ bytes := by
  unfold overwrite
  rw [List.take_length, Nat.sub_self, List.replicate_zero, List.append_nil,
    List.drop_eq_nil_of_le (Nat.le_add_right _ _), List.append_nil]

structure Files (β : Type) where
  inode : String → Option ℕ := fun _ => none
  /-- The names, in the order of a listing. -/
  names : List String := []
  bytes : ℕ → List β := fun _ => []
  /-- How many inodes there have been. -/
  created : ℕ := 0
  nodup : names.Nodup := by simp
  listed : ∀ x, x ∈ names ↔ (inode x).isSome := by simp
  /-- There are no links. -/
  apart : ∀ x y ino, inode x = some ino → inode y = some ino → x = y := by simp
  known : ∀ x ino, inode x = some ino → ino < created := by simp

namespace Files

variable (d : Files β)

def isFile (x : String) : Bool := (d.inode x).isSome

def content (x : String) : Option (List β) := (d.inode x).map d.bytes

/-- Other contents of an inode. -/
def set (ino : ℕ) (bytes : List β) : Files β := { d with bytes := Function.update d.bytes ino bytes }

/-- A name gets an inode of its own. -/
def link (x : String) (absent : d.inode x = none) : Files β where
  inode := Function.update d.inode x (some d.created)
  names := d.names ++ [x]
  bytes := Function.update d.bytes d.created []
  created := d.created + 1
  nodup := by
    refine List.nodup_append.2 ⟨d.nodup, List.nodup_singleton x, ?_⟩
    rintro y there z last rfl
    rw [List.mem_singleton] at last
    subst last
    have found := (d.listed y).1 there
    rw [absent] at found
    cases found
  listed := by
    intro y
    rw [List.mem_append, List.mem_singleton, d.listed y]
    by_cases same : y = x
    · subst same
      simp
    · simp [same]
  apart := by
    intro y z ino at_y at_z
    by_cases y_new : y = x
    · by_cases z_new : z = x
      · rw [y_new, z_new]
      · rw [y_new, Function.update_self] at at_y
        rw [Function.update_of_ne z_new, ← at_y] at at_z
        exact absurd (d.known z _ at_z) (Nat.lt_irrefl _)
    · by_cases z_new : z = x
      · rw [z_new, Function.update_self] at at_z
        rw [Function.update_of_ne y_new, ← at_z] at at_y
        exact absurd (d.known y _ at_y) (Nat.lt_irrefl _)
      · rw [Function.update_of_ne y_new] at at_y
        rw [Function.update_of_ne z_new] at at_z
        exact d.apart y z ino at_y at_z
  known := by
    intro y ino there
    by_cases new : y = x
    · rw [new, Function.update_self] at there
      cases there
      exact Nat.lt_succ_self _
    · rw [Function.update_of_ne new] at there
      exact Nat.lt_succ_of_lt (d.known y ino there)

/-- `open(x, "wb")`: the file, emptied or new, and its inode. -/
def openNew (x : String) : Files β × ℕ :=
  match found : d.inode x with
  | some ino => (d.set ino [], ino)
  | none => (d.link x found, d.created)

/-- `write` of bytes behind the first `offset`. -/
def write (zero : β) (ino offset : ℕ) (bytes : List β) : Files β :=
  d.set ino (overwrite zero (d.bytes ino) offset bytes)

/-- `os.remove` -/
def remove (x : String) : Files β where
  inode := Function.update d.inode x none
  names := d.names.filter (· ≠ x)
  bytes := d.bytes
  created := d.created
  nodup := d.nodup.filter _
  listed := by
    intro y
    by_cases same : y = x
    · simp [same]
    · simp [same, d.listed y]
  apart := by
    intro y z ino at_y at_z
    by_cases y_gone : y = x
    · rw [y_gone, Function.update_self] at at_y
      cases at_y
    · by_cases z_gone : z = x
      · rw [z_gone, Function.update_self] at at_z
        cases at_z
      · rw [Function.update_of_ne y_gone] at at_y
        rw [Function.update_of_ne z_gone] at at_z
        exact d.apart y z ino at_y at_z
  known := by
    intro y ino there
    by_cases gone : y = x
    · rw [gone, Function.update_self] at there
      cases there
    · rw [Function.update_of_ne gone] at there
      exact d.known y ino there

/-! ## One name -/

/-- If the inode has a name, this is it. -/
def Owned (ino : ℕ) (x : String) : Prop := ino < d.created ∧ ∀ y, d.inode y = some ino → y = x

/-- Nothing has happened to the name. -/
structure Same (x : String) (d d' : Files β) : Prop where
  inode : d'.inode x = d.inode x
  bytes : ∀ ino, d.inode x = some ino → d'.bytes ino = d.bytes ino

variable {d} {d' : Files β} {x y : String} {ino : ℕ}

theorem Same.refl : Same x d d := ⟨rfl, fun _ _ => rfl⟩

theorem Same.content (h : Same x d d') : d'.content x = d.content x := by
  unfold Files.content
  rw [h.inode]
  cases here : d.inode x with
  | none => rfl
  | some ino => simp only [Option.map_some, h.bytes ino here]

theorem owned_of_inode (here : d.inode x = some ino) : d.Owned ino x :=
  ⟨d.known x ino here, fun y there => d.apart y x ino there here⟩

theorem same_set (owned : d.Owned ino y) (other : x ≠ y) (bytes : List β) : Same x d (d.set ino bytes) := by
  refine ⟨rfl, ?_⟩
  intro ino' here
  apply Function.update_of_ne
  rintro rfl
  exact other (owned.2 x here)

theorem same_openNew (other : x ≠ y) : Same x d (d.openNew y).1 := by
  unfold openNew
  split
  next ino there => exact same_set (owned_of_inode there) other []
  next =>
    refine ⟨Function.update_of_ne other _ _, ?_⟩
    intro ino here
    exact Function.update_of_ne (Nat.ne_of_lt (d.known x ino here)) _ _

theorem same_remove (other : x ≠ y) : Same x d (d.remove y) :=
  ⟨Function.update_of_ne other _ _, fun _ _ => rfl⟩

theorem openNew_inode : (d.openNew x).1.inode x = some (d.openNew x).2 := by
  unfold openNew
  split
  next ino here => exact here
  next => exact Function.update_self ..

theorem openNew_bytes : (d.openNew x).1.bytes (d.openNew x).2 = [] := by
  unfold openNew
  split <;> exact Function.update_self ..

@[simp] theorem content_remove : (d.remove x).content x = none := by
  simp [Files.content, remove]

theorem Owned.set (owned : d.Owned ino x) (other : ℕ) (bytes : List β) : (d.set other bytes).Owned ino x := owned

theorem Owned.openNew (owned : d.Owned ino x) : (d.openNew y).1.Owned ino x := by
  unfold Files.openNew
  split
  next => exact owned
  next =>
    refine ⟨Nat.lt_succ_of_lt owned.1, ?_⟩
    intro z there
    by_cases new : z = y
    · rw [new] at there
      have same : d.created = ino := by simpa [link] using there
      exact absurd owned.1 (same ▸ Nat.lt_irrefl _)
    · exact owned.2 z ((Function.update_of_ne new _ _).symm.trans there)

theorem Owned.remove (owned : d.Owned ino x) : (d.remove y).Owned ino x := by
  refine ⟨owned.1, ?_⟩
  intro z there
  by_cases gone : z = y
  · rw [gone] at there
    simp [Files.remove] at there
  · exact owned.2 z ((Function.update_of_ne gone _ _).symm.trans there)

end Files

end PosixFiles
