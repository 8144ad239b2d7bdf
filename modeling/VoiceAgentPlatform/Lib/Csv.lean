import Mathlib.Data.List.Basic
import Mathlib.Data.Nat.Notation

/-!
# Comma-separated values

A writer that quotes a field only if it must, and a strict reader.

* `writeField`, `writeRow`, `writeRows`: a file of rows, each of which ends in CRLF.
* `Reader`, `step`: the reader, character by character; it refuses what no writer writes.
* `readRows_writeRows`: what is read is what was written, whatever characters the fields hold.
-/

namespace Csv

/-! ### The writer -/

/-- The characters for which a field is quoted. -/
def special : List Char := [',', '"', '\r', '\n']

/-- A quote inside quotes is doubled. -/
def escape (field : List Char) : List Char :=
  field.flatMap fun c => if c = '"' then ['"', '"'] else [c]

/-- A field between quotes. -/
def quote (field : List Char) : List Char := '"' :: escape field ++ ['"']

/-- A field, in quotes if it holds a special character. -/
def writeField (field : List Char) : List Char :=
  if field.any (· ∈ special) then quote field else field

/-- The fields of a row behind the first one. -/
def writeRest (fields : List (List Char)) : List Char := fields.flatMap fun field => ',' :: writeField field

/-- A row. A row of one empty field is not left empty. -/
def writeRow : List (List Char) → List Char
  | [] => ['\r', '\n']
  | [[]] => quote [] ++ ['\r', '\n']
  | field :: fields => writeField field ++ writeRest fields ++ ['\r', '\n']

/-- A file. -/
def writeRows (rows : List (List (List Char))) : List Char := rows.flatMap writeRow

/-! ### The reader -/

/-- Where the reader stands: in a field, between quotes, behind a quote between quotes, or behind a
carriage return. -/
inductive Place where
  | plain
  | quoted
  | closing
  | ending
  deriving DecidableEq

/-- The reader: the field and the row that are being read, and the rows that have been. -/
structure Reader where
  place : Place
  field : List Char
  row : List (List Char)
  rows : List (List (List Char))
  deriving DecidableEq

/-- The reader of a file that begins. -/
def Reader.start : Reader := ⟨.plain, [], [], []⟩

/-- The field is complete. -/
def Reader.endField (r : Reader) : Reader :=
  { r with place := .plain, field := [], row := r.row ++ [r.field] }

/-- The row is complete. -/
def Reader.endRow (r : Reader) : Reader :=
  { place := .plain, field := [], row := [], rows := r.rows ++ [r.row ++ [r.field]] }

/-- One character. -/
def step (r : Reader) (c : Char) : Option Reader :=
  match r.place with
  | .plain =>
    -- A quote may only stand at the beginning of a field.
    if c = ',' then some r.endField
    else if c = '\r' then some { r with place := .ending }
    else if c = '\n' then none
    else if c = '"' then if r.field = [] then some { r with place := .quoted } else none
    else some { r with field := r.field ++ [c] }
  | .quoted =>
    if c = '"' then some { r with place := .closing } else some { r with field := r.field ++ [c] }
  | .closing =>
    if c = '"' then some { r with place := .quoted, field := r.field ++ [c] }
    else if c = ',' then some r.endField
    else if c = '\r' then some { r with place := .ending }
    else none
  | .ending => if c = '\n' then some r.endRow else none

/-- The characters of a text. -/
def run (r : Reader) (text : List Char) : Option Reader := text.foldlM step r

/-- The rows of a file. The last row ends in CRLF as well. -/
def readRows (text : List Char) : Option (List (List (List Char))) :=
  match run .start text with
  | some ⟨.plain, [], [], rows⟩ => some rows
  | _ => none

/-! ### The round trip -/

theorem run_cons (r : Reader) (c : Char) (text : List Char) :
    run r (c :: text) = (step r c).bind fun r' => run r' text := rfl

theorem run_append (r : Reader) (text text' : List Char) :
    run r (text ++ text') = (run r text).bind fun r' => run r' text' := List.foldlM_append ..

/-- The reader has just read a field. -/
def Reader.Read (r : Reader) (field : List Char) (row : List (List Char))
    (rows : List (List (List Char))) : Prop :=
  (r.place = .plain ∨ r.place = .closing) ∧ r.field = field ∧ r.row = row ∧ r.rows = rows

variable {field : List Char} {row : List (List Char)} {rows : List (List (List Char))} {r : Reader}

/-- A field without special characters is read as it is. -/
theorem run_plain (h : ∀ c ∈ field, c ∉ special) (before : List Char) :
    run ⟨.plain, before, row, rows⟩ field = some ⟨.plain, before ++ field, row, rows⟩ := by
  induction field generalizing before with
  | nil => rw [List.append_nil]; rfl
  | cons c field ih =>
    have hc := h c List.mem_cons_self
    simp only [special, List.mem_cons, List.not_mem_nil, or_false, not_or] at hc
    obtain ⟨hcomma, hquote, hcr, hlf⟩ := hc
    rw [run_cons, step]
    simp only [if_neg hcomma, if_neg hcr, if_neg hlf, if_neg hquote, Option.bind_some]
    rw [ih (fun c hc => h c (List.mem_cons_of_mem _ hc)), List.append_assoc, List.singleton_append]

/-- Between quotes every character is read as it is. -/
theorem run_escape (before : List Char) :
    run ⟨.quoted, before, row, rows⟩ (escape field) = some ⟨.quoted, before ++ field, row, rows⟩ := by
  induction field generalizing before with
  | nil => rw [List.append_nil]; rfl
  | cons c field ih =>
    rw [escape, List.flatMap_cons, ← escape]
    by_cases hquote : c = '"'
    · subst hquote
      simp only [if_pos, List.cons_append, List.nil_append, run_cons, step, Option.bind_some]
      rw [ih, List.append_assoc, List.singleton_append]
    · simp only [if_neg hquote, List.cons_append, List.nil_append, run_cons, step, Option.bind_some]
      rw [ih, List.append_assoc, List.singleton_append]

theorem run_quote (field : List Char) (row : List (List Char)) (rows : List (List (List Char))) :
    run ⟨.plain, [], row, rows⟩ (quote field) = some ⟨.closing, field, row, rows⟩ := by
  have hopen : step ⟨.plain, [], row, rows⟩ '"' = some ⟨.quoted, [], row, rows⟩ := rfl
  rw [quote, List.cons_append, run_cons, hopen, Option.bind_some, run_append, run_escape, Option.bind_some,
    List.nil_append]
  rfl

/-- A field is read as it was written. -/
theorem run_writeField (field : List Char) (row : List (List Char)) (rows : List (List (List Char))) :
    ∃ r, run ⟨.plain, [], row, rows⟩ (writeField field) = some r ∧ r.Read field row rows := by
  rw [writeField]
  split_ifs with hspecial
  · -- The reader cannot know yet whether the last quote ends the field.
    exact ⟨_, run_quote field row rows, .inr rfl, rfl, rfl, rfl⟩
  · refine ⟨_, run_plain (fun c hc hmem => hspecial ?_) [], .inl rfl, rfl, rfl, rfl⟩
    exact List.any_eq_true.mpr ⟨c, hc, decide_eq_true hmem⟩

/-- A comma ends a field. -/
theorem Reader.Read.step_comma (h : r.Read field row rows) :
    step r ',' = some ⟨.plain, [], row ++ [field], rows⟩ := by
  obtain ⟨place, field, row, rows⟩ := r
  obtain ⟨rfl | rfl, rfl, rfl, rfl⟩ := h <;> rfl

/-- The end of a row ends its last field. -/
theorem Reader.Read.run_crlf (h : r.Read field row rows) :
    run r ['\r', '\n'] = some ⟨.plain, [], [], rows ++ [row ++ [field]]⟩ := by
  obtain ⟨place, field, row, rows⟩ := r
  obtain ⟨rfl | rfl, rfl, rfl, rfl⟩ := h <;> rfl

/-- The fields behind the first one, and the end of the row. -/
theorem Reader.Read.run_writeRest (h : r.Read field row rows) (fields : List (List Char)) :
    run r (writeRest fields ++ ['\r', '\n']) =
      some ⟨.plain, [], [], rows ++ [row ++ field :: fields]⟩ := by
  induction fields generalizing r field row with
  | nil => exact h.run_crlf
  | cons field' fields ih =>
    obtain ⟨r', hrun, hread⟩ := run_writeField field' (row ++ [field]) rows
    rw [writeRest, List.flatMap_cons, ← writeRest, List.append_assoc, List.cons_append, run_cons,
      h.step_comma, Option.bind_some, run_append, hrun, Option.bind_some, ih hread, List.append_assoc]
    rfl

/-- A row is read as it was written, if it has a field. -/
theorem run_writeRow (h : row ≠ []) (rows : List (List (List Char))) :
    run ⟨.plain, [], [], rows⟩ (writeRow row) = some ⟨.plain, [], [], rows ++ [row]⟩ := by
  fun_cases writeRow row with
  | case1 => exact absurd rfl h
  | case2 =>
    rw [run_append, run_quote]
    rfl
  | case3 field fields =>
    obtain ⟨r, hrun, hread⟩ := run_writeField field [] rows
    rw [List.append_assoc, run_append, hrun, Option.bind_some, hread.run_writeRest]
    rfl

/-- Reading a file gives the rows that were written. -/
theorem readRows_writeRows {written : List (List (List Char))} (h : ∀ row ∈ written, row ≠ []) :
    readRows (writeRows written) = some written := by
  have hrun (rows : List (List (List Char))) :
      run ⟨.plain, [], [], rows⟩ (writeRows written) = some ⟨.plain, [], [], rows ++ written⟩ := by
    induction written generalizing rows with
    | nil => rw [List.append_nil]; rfl
    | cons row written ih =>
      rw [writeRows, List.flatMap_cons, ← writeRows, run_append, run_writeRow (h row List.mem_cons_self),
        Option.bind_some, ih (fun row hrow => h row (List.mem_cons_of_mem _ hrow)), List.append_assoc]
      rfl
  rw [readRows, Reader.start, hrun]
  rfl

end Csv
