import Mathlib.Tactic.SplitIfs

/-!
# Replacing a file as a whole

A value in memory that is kept in a file: writing it goes through a temporary file that replaces the
old one in the last step, and every step can fail.

* `Backed`: the file, the temporary files and the value in memory.
* `writeAtomic`: the write; `writeAtomic_some` says that one which fails leaves nothing behind.
-/

namespace AtomicFile

/-- The steps of a write that can fail. -/
inductive WriteStep where
  | makedirs
  | mkstemp
  /-- Writing the text of the value, which may have none. -/
  | dump
  | fsync
  | replace
  deriving DecidableEq

/-- The content of a file: bytes, or the text that `json.dump` makes of a value. -/
inductive FileText (S : Type) where
  | bytes (b : ByteArray)
  | dumped (value : S)

/-- The value in memory, the file, and the temporary files that are open, the newest first, each with
the value whose text it holds if that is complete. -/
structure Backed (S : Type) where
  cache : Option S
  file : Option (FileText S)
  temps : List (Option S) := []

variable {S ε : Type}

/-- Programs over a file and the value in memory. A step that raises keeps what was done before it. -/
abbrev FileM (S ε : Type) := EStateM ε (Backed S)

/-- A step, which fails if it is the one in `fault`. -/
def step (fault : Option WriteStep) (s : WriteStep) (e : WriteStep → ε) : FileM S ε Unit :=
  if fault = some s then throw (e s) else pure ()

/-- The body of the `try` of a write: fill the temporary file and replace the file by it. -/
def fillAndReplace (fault : Option WriteStep) (e : WriteStep → ε) (value : S) : FileM S ε Unit := do
  step fault .dump e
  modify fun b => { b with temps := some value :: b.temps.tail }
  step fault .fsync e
  step fault .replace e
  modify fun b => { b with file := some (.dumped value), temps := b.temps.tail }

/-- `_write_atomic`, which fails at the step `fault` if there is one. The temporary file is removed
after a failure. -/
def writeAtomic (fault : Option WriteStep) (e : WriteStep → ε) (value : S) : FileM S ε Unit := do
  step fault .makedirs e
  step fault .mkstemp e
  modify fun b => { b with temps := none :: b.temps }
  tryCatch (fillAndReplace fault e value) fun error => do
    modify fun b => { b with temps := b.temps.tail }
    throw error

/-- A write that fails leaves everything as it was. -/
theorem writeAtomic_some (s : WriteStep) (e : WriteStep → ε) (value : S) (b : Backed S) :
    writeAtomic (some s) e value b = .error (e s) b := by
  cases s with
  | makedirs => rfl
  | mkstemp => rfl
  | dump => rfl
  | fsync => rfl
  | replace => rfl

end AtomicFile
