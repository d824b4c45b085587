import Mathlib.Tactic.Common

/-!
# A path and the file it names

A path names a file, by its inode, or no file. A process that opens the path keeps the inode:
unlinking the path takes the name away and leaves the inode to those who have opened it, and the
next process to open the path creates another one.
-/

/-- What a path names, and the next inode to be created. -/
structure LinkedFile where
  inode : Option Nat
  next : Nat
  inode_lt : ∀ i, inode = some i → i < next

namespace LinkedFile

variable {f : LinkedFile} {i : Nat}

/-- No file, and none has been created. -/
def missing : LinkedFile := ⟨none, 0, nofun⟩

/-- The inode that opening the path gives. -/
def target (f : LinkedFile) : Nat := f.inode.getD f.next

/-- Open the path, and create the file where there is none. -/
def openCreate (f : LinkedFile) : LinkedFile where
  inode := some f.target
  next := max f.next (f.target + 1)
  inode_lt i hi := by
    cases hi
    omega

/-- Take the name away from the file. -/
def unlink (f : LinkedFile) : LinkedFile := ⟨none, f.next, nofun⟩

@[simp] lemma inode_missing : missing.inode = none := rfl

@[simp] lemma inode_openCreate : f.openCreate.inode = some f.target := rfl

@[simp] lemma inode_unlink : f.unlink.inode = none := rfl

@[simp] lemma next_unlink : f.unlink.next = f.next := rfl

lemma target_of_inode (h : f.inode = some i) : f.target = i := by simp [target, h]

end LinkedFile
