import VoiceAgentPlatform.Lib.JsonText

/-!
# Files of JSON objects, one on each line

* `nullMember`, `objectMember`: members whose values are `null` and objects.
* `objectText`: the text of an object; `read_objectText` reads it back.
* `fileLines`: the lines of a text file, which end in a line feed, a carriage return, or both.
* `fileLines_objects`: an object is on one line, whatever its strings hold.
-/

namespace Json

/-- A member whose value is `null`. -/
def nullMember (key : String) : Member := ⟨key, "null".toList, .none⟩

/-- The text of an object. -/
def objectText (ms : List Member) : List Char := '{' :: (membersText ms ++ ['}'])

/-- The value of an object with different keys. -/
def objectValue (ms : List Member) : PyDict := ms.map fun m => (m.key, m.value)

/-- A member whose value is an object. -/
def objectMember (key : String) (ms : List Member) : Member := ⟨key, objectText ms, .dict (objectValue ms)⟩

/-- Members with different keys are all kept, in their order. -/
theorem foldl_set_eq {ms : List Member} {d : PyDict}
    (h : ((d.map Prod.fst) ++ ms.map Member.key).Nodup) :
    ms.foldl (fun d m => PyDict.set d m.key m.value) d = d ++ objectValue ms := by
  induction ms generalizing d with
  | nil => exact (List.append_nil d).symm
  | cons m ms ih =>
    have hnew : (d.any fun e => e.1 = m.key) = false := by
      rw [List.any_eq_false]
      intro e he heq
      rw [List.map_cons, List.nodup_append] at h
      exact h.2.2 e.1 (List.mem_map_of_mem he) m.key List.mem_cons_self (of_decide_eq_true heq)
    have hset : PyDict.set d m.key m.value = d ++ [(m.key, m.value)] := by
      rw [PyDict.set, hnew]
      rfl
    rw [List.foldl_cons, hset, ih, List.append_assoc]
    · rfl
    · simpa using h

/-- What is behind the text of a member's value does not matter to the blank before it. -/
theorem skipSpaces_cons_append {c : Char} (h : isSpace c = false) (cs rest : List Char) :
    skipSpaces (' ' :: (c :: cs ++ rest)) = c :: cs ++ rest :=
  (List.dropWhile_cons_of_pos (by decide)).trans (skipSpaces_of_not_space h _)

variable {r : Reader}

theorem readWith_nullMember (key : String) : (nullMember key).ReadWith r 1 0 where
  value fuel hfuel depth _ rest _ := by
    obtain ⟨fuel, rfl⟩ := Nat.exists_eq_succ_of_ne_zero (show fuel ≠ 0 by omega)
    rfl
  start rest := skipSpaces_cons_append (by decide) _ rest

theorem Member.ReadWith.mono {m : Member} {need need' nesting nesting' : ℕ}
    (h : m.ReadWith r need nesting) (hneed : need ≤ need') (hnesting : nesting ≤ nesting') :
    m.ReadWith r need' nesting' :=
  ⟨fun fuel hfuel depth hdepth => h.value fuel (hneed.trans hfuel) depth
    fun limit hlimit => hnesting.trans (hdepth limit hlimit), h.start⟩

theorem readWith_objectMember (key : String) (m : Member) (ms : List Member) {need nesting : ℕ}
    (hms : ∀ m' ∈ m :: ms, m'.ReadWith r need nesting) (hkeys : ((m :: ms).map Member.key).Nodup) :
    (objectMember key (m :: ms)).ReadWith r (need + ms.length + 2) (nesting + 1) where
  value fuel hfuel depth hdepth rest _ := by
    have hvalue := parseValue_membersText m ms hms hfuel hdepth rest
    rw [foldl_set_eq (by simpa using hkeys), List.nil_append] at hvalue
    have htext : (objectMember key (m :: ms)).text ++ rest =
        '{' :: (membersText (m :: ms) ++ '}' :: rest) := by
      simp [objectMember, objectText]
    rw [htext, hvalue]
    rfl
  start rest := skipSpaces_cons_append (by decide) _ rest

/-- Reading inverts writing for an object with at least one member. -/
theorem read_objectText (m : Member) (ms : List Member) {need nesting : ℕ}
    (hms : ∀ m' ∈ m :: ms, m'.ReadWith r need nesting) (hkeys : ((m :: ms).map Member.key).Nodup)
    {depth : Option ℕ} (hdepth : HasRoom (nesting + 1) depth) :
    read r depth (String.ofList (objectText (m :: ms))) = .ok (.dict (objectValue (m :: ms))) := by
  rw [objectText, read_members m ms hms hdepth, foldl_set_eq (by simpa using hkeys), List.nil_append]

/-! ### Lines -/

/-- A text without control characters. -/
def Printable (text : List Char) : Prop := ∀ c ∈ text, 32 ≤ c.toNat

instance (text : List Char) : Decidable (Printable text) := inferInstanceAs (Decidable (∀ c ∈ text, _))

theorem printable_append {text text' : List Char} :
    Printable (text ++ text') ↔ Printable text ∧ Printable text' := List.forall_mem_append

theorem printable_cons {c : Char} {text : List Char} :
    Printable (c :: text) ↔ 32 ≤ c.toNat ∧ Printable text := List.forall_mem_cons

/-- No control character is left as it is. -/
theorem printable_escape (c : Char) : Printable (escape c) := by
  have hhex : ∀ n : Fin 16, 32 ≤ (hexDigit n.val).toNat := by decide
  unfold escape
  split_ifs with hquote hslash hn hr ht hf hb hcontrol
  · decide
  · decide
  · decide
  · decide
  · decide
  · decide
  · decide
  · simp only [printable_cons]
    exact ⟨by decide, by decide, by decide, by decide, hhex ⟨c.toNat / 16, by omega⟩,
      hhex ⟨c.toNat % 16, by omega⟩, nofun⟩
  · exact printable_cons.mpr ⟨not_lt.mp hcontrol, nofun⟩

theorem printable_dumpString (s : String) : Printable (dumpString s) := by
  simp only [dumpString, List.cons_append, printable_cons, printable_append]
  refine ⟨by decide, fun c hc => ?_, by decide, fun c hc => absurd hc List.not_mem_nil⟩
  obtain ⟨c', -, hc⟩ := List.mem_flatMap.mp hc
  exact printable_escape c' c hc

theorem printable_dumpInt (i : ℤ) : Printable (dumpInt i) := by
  have hdigits : Printable (Nat.toDigits 10 i.natAbs) := by
    intro c hc
    have hdigit := Nat.isDigit_of_mem_toDigits (by decide) (by decide) hc
    simp only [Char.isDigit, ge_iff_le, Bool.and_eq_true, decide_eq_true_eq] at hdigit
    exact le_trans (by decide : 32 ≤ 48) (UInt32.le_iff_toNat_le.mp hdigit.1)
  unfold dumpInt
  split_ifs
  · exact printable_cons.mpr ⟨by decide, hdigits⟩
  · exact hdigits

theorem printable_nullMember (key : String) : Printable (nullMember key).text := by
  show Printable "null".toList
  decide

theorem printable_leafMember (m : String × (String ⊕ ℤ)) : Printable (leafMember m).text := by
  obtain ⟨key, s | i⟩ := m
  · exact printable_dumpString s
  · exact printable_dumpInt i

/-- The text of an object has no control characters if the texts of the values have none. -/
theorem printable_objectText {ms : List Member} (h : ∀ m ∈ ms, Printable m.text) :
    Printable (objectText ms) := by
  have hwritten (m : Member) (hm : Printable m.text) : Printable m.written := by
    simp only [Member.written, printable_append, printable_cons]
    exact ⟨printable_dumpString m.key, by decide, by decide, hm⟩
  have hmembers : Printable (membersText ms) := by
    induction ms with
    | nil => decide
    | cons m ms ih =>
      have hm := hwritten m (h m List.mem_cons_self)
      have hrest := ih fun m' hm' => h m' (List.mem_cons_of_mem _ hm')
      cases ms with
      | nil => rwa [membersText, List.map_singleton, List.intercalate_singleton]
      | cons m' ms =>
        rw [membersText, List.map_cons, List.map_cons, List.intercalate_cons_cons, printable_append,
          printable_append]
        exact ⟨⟨hm, by decide⟩, hrest⟩
  rw [objectText, printable_cons, printable_append]
  exact ⟨by decide, hmembers, by decide⟩

/-- The lines of a text file, without what ends them; `line` is what has been read of one. -/
def linesFrom (line : List Char) : List Char → List (List Char)
  | [] => if line = [] then [] else [line]
  | '\r' :: '\n' :: rest => line :: linesFrom [] rest
  | c :: rest => if c = '\n' ∨ c = '\r' then line :: linesFrom [] rest else linesFrom (line ++ [c]) rest

/-- The lines of a text file. -/
def fileLines (text : List Char) : List (List Char) := linesFrom [] text

/-- A text without control characters is part of a line. -/
theorem linesFrom_printable {text : List Char} (h : Printable text) (line rest : List Char) :
    linesFrom line (text ++ rest) = linesFrom (line ++ text) rest := by
  induction text generalizing line with
  | nil => rw [List.append_nil, List.nil_append]
  | cons c text ih =>
    obtain ⟨hc, htext⟩ := printable_cons.mp h
    have hend : ¬ (c = '\n' ∨ c = '\r') := by
      rintro (rfl | rfl) <;> exact absurd hc (by decide)
    rw [List.cons_append, linesFrom, if_neg hend, ih htext, List.append_assoc, List.singleton_append]
    rintro rest' rfl
    exact absurd (Or.inr rfl) hend

/-- A line that ends in a line feed. -/
theorem linesFrom_newline (line rest : List Char) :
    linesFrom line ('\n' :: rest) = line :: linesFrom [] rest := by
  rw [linesFrom, if_pos (Or.inl rfl)]
  exact fun _ h => absurd h (by simp)

/-- A file that ends in a line feed, or is empty. -/
def Complete (text : List Char) : Prop := text = [] ∨ text.getLast? = some '\n'

/-- What is behind the first character of a text that ends in a line feed. -/
theorem tail_of_getLast? {c : Char} {text : List Char} (h : (c :: text).getLast? = some '\n') :
    text = [] ∧ c = '\n' ∨ text.getLast? = some '\n' := by
  cases text with
  | nil => exact .inl ⟨rfl, Option.some.inj h⟩
  | cons c' text => exact .inr (by rwa [List.getLast?_cons_cons] at h)

/-- What is behind a line feed is read by itself. -/
theorem linesFrom_append {line text : List Char} (h : line = [] ∧ text = [] ∨ text.getLast? = some '\n')
    (rest : List Char) : linesFrom line (text ++ rest) = linesFrom line text ++ linesFrom [] rest := by
  fun_induction linesFrom line text with
  | case1 => rfl
  | case2 line hne => exact absurd (h.resolve_right (by simp)).1 hne
  | case3 line text ih =>
    have hlast : ('\n' :: text).getLast? = some '\n' := by simpa using h
    rw [List.cons_append, List.cons_append, linesFrom, ih, List.cons_append]
    exact (tail_of_getLast? hlast).imp_left fun h => ⟨rfl, h.1⟩
  | case4 line c text hnot hend ih =>
    rcases tail_of_getLast? (h.resolve_left (by simp)) with ⟨rfl, rfl⟩ | hlast
    · exact linesFrom_newline line rest
    · rw [List.cons_append, linesFrom, if_pos hend, ih (.inr hlast), List.cons_append]
      -- A line feed behind the carriage return would be part of the same end of line.
      rintro rest' rfl hrest
      cases text with
      | nil => cases hlast
      | cons c' text => exact hnot text rfl (by rw [(List.cons.inj hrest).1])
  | case5 line c text hnot hend ih =>
    rcases tail_of_getLast? (h.resolve_left (by simp)) with ⟨-, rfl⟩ | hlast
    · exact absurd (.inl rfl) hend
    · rw [List.cons_append, linesFrom, if_neg hend, ih (.inr hlast)]
      rintro rest' rfl
      exact absurd (.inr rfl) hend

/-- Lines behind complete ones are read one by one. -/
theorem fileLines_append {file : List Char} (hfile : Complete file) {lines : List (List Char)}
    (h : ∀ line ∈ lines, Printable line) :
    fileLines (file ++ lines.flatMap (· ++ ['\n'])) = fileLines file ++ lines := by
  have hlines : fileLines (lines.flatMap (· ++ ['\n'])) = lines := by
    induction lines with
    | nil => rfl
    | cons line lines ih =>
      rw [fileLines, List.flatMap_cons, List.append_assoc, linesFrom_printable (h line List.mem_cons_self),
        List.singleton_append, linesFrom_newline, List.nil_append, ← fileLines,
        ih fun line hline => h line (List.mem_cons_of_mem _ hline)]
  rw [fileLines, linesFrom_append (hfile.imp_left fun h => ⟨rfl, h⟩), ← fileLines, ← fileLines, hlines]

/-- A file stays complete when complete lines are appended. -/
theorem Complete.append {file : List Char} (hfile : Complete file) (lines : List (List Char)) :
    Complete (file ++ lines.flatMap (· ++ ['\n'])) := by
  rcases List.eq_nil_or_concat lines with rfl | ⟨lines, line, rfl⟩
  · rwa [List.flatMap_nil, List.append_nil]
  · right
    rw [List.concat_eq_append, List.flatMap_append, List.flatMap_singleton, ← List.append_assoc,
      ← List.append_assoc, List.getLast?_concat]

end Json
