import Std.Data.TreeMap
import TagGateway.Text.Octets

/-!
A directory with files, and a way to replace a file that never leaves half of it behind: the new
content goes to a temporary file first, which then takes the place of the old one in one step.
Main statements: a failure leaves the file as it was, a success leaves no temporary file, and other
files are never touched.
-/

set_option autoImplicit false

namespace TagGateway

inductive Node where
  | file (content : Bytes)
  | directory
  deriving DecidableEq, Repr

structure Disk where
  present : Bool := true
  nodes : Std.TreeMap String Node := ∅

/-- Where replacing a file may fail, beyond what the directory itself does not allow. A write that
fails may leave the first part of the content. -/
inductive Fault where
  | create
  | write (kept : Nat)
  | sync
  | rename
  deriving DecidableEq, Repr

def temporary (name : String) : String := name ++ ".tmp"

theorem temporary_ne (name : String) : temporary name ≠ name := by
  intro h
  have := congrArg String.length h
  simp [temporary] at this

namespace Disk

def put (d : Disk) (name : String) (node : Node) : Disk :=
  { d with nodes := d.nodes.insert name node }

def erase (d : Disk) (name : String) : Disk := { d with nodes := d.nodes.erase name }

@[simp] theorem getElem?_put (d : Disk) (name other : String) (node : Node) :
    (d.put name node).nodes[other]? = if name = other then some node else d.nodes[other]? := by
  simp [put, Std.TreeMap.getElem?_insert]

@[simp] theorem getElem?_erase (d : Disk) (name other : String) :
    (d.erase name).nodes[other]? = if name = other then none else d.nodes[other]? := by
  simp [erase, Std.TreeMap.getElem?_erase]

def replace (d : Disk) (name : String) (content : Bytes) (fault : Option Fault) : Bool × Disk :=
  if !d.present ∨ d.nodes[temporary name]? = some .directory ∨ fault = some .create then (false, d)
  else
    let written := d.put (temporary name) (.file content)
    match fault with
    | some (.write kept) => (false, d.put (temporary name) (.file (content.take kept)))
    | some _ => (false, written)
    | none =>
      if d.nodes[name]? = some .directory then (false, written)
      else (true, (written.erase (temporary name)).put name (.file content))

theorem replace_succeeds_iff {d : Disk} {name : String} {content : Bytes} {fault : Option Fault} :
    (d.replace name content fault).1 = true
      ↔ fault = none ∧ d.present ∧ d.nodes[name]? ≠ some .directory
        ∧ d.nodes[temporary name]? ≠ some .directory := by
  unfold replace
  split
  · grind
  · split
    · simp
    · simp_all
    · split <;> simp_all

theorem replace_of_ne {d : Disk} {name other : String} {content : Bytes} {fault : Option Fault}
    (hn : other ≠ name) (ht : other ≠ temporary name) :
    (d.replace name content fault).2.nodes[other]? = d.nodes[other]? := by
  have hn' : ¬name = other := fun h => hn h.symm
  have ht' : ¬temporary name = other := fun h => ht h.symm
  unfold replace
  split
  · rfl
  · split
    · simp [ht']
    · simp [ht']
    · split <;> simp [hn', ht']

theorem replace_failed {d : Disk} {name : String} {content : Bytes} {fault : Option Fault}
    (h : (d.replace name content fault).1 = false) :
    (d.replace name content fault).2.nodes[name]? = d.nodes[name]? := by
  have ht := temporary_ne name
  unfold replace at h ⊢
  split
  · rfl
  · split
    · simp [ht]
    · simp [ht]
    · split
      · simp [ht]
      · simp_all

theorem replace_succeeded {d : Disk} {name : String} {content : Bytes} {fault : Option Fault}
    (h : (d.replace name content fault).1 = true) :
    (d.replace name content fault).2.nodes[name]? = some (.file content)
      ∧ (d.replace name content fault).2.nodes[temporary name]? = none := by
  have ht : ¬name = temporary name := fun e => temporary_ne name e.symm
  unfold replace at h ⊢
  split
  · simp_all
  · split
    · simp_all
    · simp_all
    · split
      · simp_all
      · simp [ht]

end Disk

end TagGateway
