import Mathlib.Data.List.TakeDrop
import Mathlib.Tactic.IntervalCases
import VoiceAgentPlatform.Lib.Json

/-!
# Writing JSON text

Objects of strings, integers and lists of strings, written as `json.dumps` does with
`ensure_ascii=False`, are read back.

* `dumps`, `dumpsObject`: the text of an object whose values are strings, or strings and integers.
* `Member.ReadWith`: a member that is read back with given fuel and nesting; `read_members`: the object of
  such members.
* `read_dumpsObject`, `read_dumps_singleton`: reading inverts writing.
-/

namespace Json

/-- A hexadecimal digit. -/
def hexDigit (n : ℕ) : Char := "0123456789abcdef".toList.getD n '0'

/-- A character as it stands in a string. -/
def escape (c : Char) : List Char :=
  if c = quote then ['\\', quote]
  else if c = '\\' then ['\\', '\\']
  else if c = '\n' then ['\\', 'n']
  else if c = '\r' then ['\\', 'r']
  else if c = '\t' then ['\\', 't']
  else if c = Char.ofNat 12 then ['\\', 'f']
  else if c = Char.ofNat 8 then ['\\', 'b']
  -- The control characters without a letter of their own.
  else if c.toNat < 32 then ['\\', 'u', '0', '0', hexDigit (c.toNat / 16), hexDigit (c.toNat % 16)]
  else [c]

/-- The text of a string. -/
def dumpString (s : String) : List Char := quote :: s.toList.flatMap escape ++ [quote]

/-- The text of an object whose values are strings. -/
def dumps (members : List (String × String)) : String :=
  let texts := members.map fun m => dumpString m.1 ++ ':' :: ' ' :: dumpString m.2
  String.ofList ('{' :: List.intercalate [',', ' '] texts ++ ['}'])

/-- The text of an `int`. -/
def dumpInt (i : ℤ) : List Char :=
  if i < 0 then '-' :: Nat.toDigits 10 i.natAbs else Nat.toDigits 10 i.natAbs

/-- The text of a string or a number. -/
def dumpLeaf : String ⊕ ℤ → List Char
  | .inl s => dumpString s
  | .inr i => dumpInt i

/-- The value of a string or a number. -/
def leafValue : String ⊕ ℤ → PyVal
  | .inl s => .str s
  | .inr i => .int i

/-- The text of one member of an object. -/
def memberText (m : String × (String ⊕ ℤ)) : List Char :=
  dumpString m.1 ++ ':' :: ' ' :: dumpLeaf m.2

/-- The text of an object whose values are strings and numbers. -/
def dumpsObject (members : List (String × (String ⊕ ℤ))) : String :=
  String.ofList ('{' :: (List.intercalate [',', ' '] (members.map memberText) ++ ['}']))

theorem hexValue?_hexDigit {n : ℕ} (h : n < 16) : hexValue? (hexDigit n) = some n := by
  have hall : ∀ n : Fin 16, hexValue? (hexDigit n.val) = some n.val := by decide
  exact hall ⟨n, h⟩

/-- A short escape is read as the character it stands for. -/
theorem parsePoints_short {c e : Char} (he : unescape? e = some c) (hu : e ≠ 'u') (rest : List Char) :
    parsePoints ('\\' :: e :: rest) = (parsePoints rest).map fun p => (c.toNat :: p.1, p.2) := by
  rw [parsePoints, if_neg (by decide), if_pos rfl, he]
  exact fun _ _ _ _ _ h => absurd h hu

/-- Reading inverts writing, one character at a time. -/
theorem parsePoints_escape (c : Char) (rest : List Char) :
    parsePoints (escape c ++ rest) = (parsePoints rest).map fun p => (c.toNat :: p.1, p.2) := by
  unfold escape
  split_ifs with hquote hslash hn hr ht hf hb hcontrol
  · exact parsePoints_short (by rw [hquote]; decide) (by decide) rest
  · exact parsePoints_short (by rw [hslash]; decide) (by decide) rest
  · exact parsePoints_short (by rw [hn]; decide) (by decide) rest
  · exact parsePoints_short (by rw [hr]; decide) (by decide) rest
  · exact parsePoints_short (by rw [ht]; decide) (by decide) rest
  · exact parsePoints_short (by rw [hf]; decide) (by decide) rest
  · exact parsePoints_short (by rw [hb]; decide) (by decide) rest
  · have hzero : hexValue? '0' = some 0 := by decide
    -- A control character is escaped by the four digits of its number.
    have hhex : hex4? '0' '0' (hexDigit (c.toNat / 16)) (hexDigit (c.toNat % 16)) =
        some c.toNat := by
      simp only [hex4?, hzero, hexValue?_hexDigit (show c.toNat / 16 < 16 by omega),
        hexValue?_hexDigit (show c.toNat % 16 < 16 by omega)]
      simp only [Option.bind_eq_bind, Option.bind_some, Option.pure_def, Option.some.injEq]
      omega
    simp only [List.cons_append, List.nil_append]
    rw [parsePoints, if_neg (by decide), if_pos rfl]
    simp only [hhex]
  · simp only [List.cons_append, List.nil_append]
    rw [parsePoints.eq_def]
    simp only [if_neg hquote, if_neg hslash, if_neg hcontrol]

theorem parsePoints_dumped (cs rest : List Char) :
    parsePoints (cs.flatMap escape ++ quote :: rest) = some (cs.map Char.toNat, rest) := by
  induction cs with
  | nil =>
    rw [parsePoints.eq_def]
    simp
  | cons c cs ih =>
    rw [List.flatMap_cons, List.append_assoc, parsePoints_escape, ih]
    rfl

/-- A character is no surrogate. -/
theorem not_surrogate (c : Char) : isHighSurrogate c.toNat = false ∧ isLowSurrogate c.toNat = false := by
  have hvalid : c.toNat < 0xD800 ∨ 0xDFFF < c.toNat ∧ c.toNat < 0x110000 := c.valid
  simp only [isHighSurrogate, isLowSurrogate, Bool.and_eq_false_iff, decide_eq_false_iff_not]
  omega

/-- The code points of characters are these characters. -/
theorem pointsText_map_toNat (standIn : ℕ → Char) (cs : List Char) :
    pointsText standIn (cs.map Char.toNat) = cs := by
  have hchar (c : Char) : pointChar standIn c.toNat = c := by
    rw [pointChar, (not_surrogate c).1, (not_surrogate c).2]
    exact Char.ofNat_toNat c
  induction cs with
  | nil => rfl
  | cons c cs ih =>
    cases cs with
    | nil => exact congrArg (fun c => [c]) (hchar c)
    | cons c' cs =>
      rw [List.map_cons] at ih
      rw [List.map_cons, List.map_cons, pointsText, (not_surrogate c).1, Bool.false_and, if_neg (by simp),
        ih, hchar]

/-- Reading a string that was written. -/
theorem parseString_dumped (standIn : ℕ → Char) (cs rest : List Char) :
    parseString standIn (cs.flatMap escape ++ quote :: rest) = some (cs, rest) := by
  rw [parseString, parsePoints_dumped, Option.map_some, pointsText_map_toNat]

theorem skipSpaces_of_not_space {c : Char} (h : isSpace c = false) (cs : List Char) :
    skipSpaces (c :: cs) = c :: cs := by
  simp [skipSpaces, h]

variable {r : Reader}

/-- Reading a value that is a string. -/
theorem parseValue_dumpString (fuel : ℕ) (depth : Option ℕ) (s : String) (rest : List Char) :
    parseValue r (fuel + 1) depth (dumpString s ++ rest) = .ok (.str s, rest) := by
  have hread := parseString_dumped r.standIn s.toList rest
  simp only [dumpString, List.cons_append, List.append_assoc, List.nil_append]
  generalize s.toList.flatMap escape ++ quote :: rest = text at hread
  rw [parseValue.eq_def]
  simp [quote, hread]

/-- Reading a value stops in front of a comma or a closing brace. -/
def Delimited (rest : List Char) : Prop := ∃ cs, rest = ',' :: cs ∨ rest = '}' :: cs

theorem digitsValue_toDigits (n : ℕ) : digitsValue (Nat.toDigits 10 n) = n := by
  have hfold := Nat.ofDigitChars_ten_toDigits (n := n)
  rw [Nat.ofDigitChars_eq_foldl] at hfold
  have hstep : (fun n c => n * 10 + (c.toNat - 48)) =
      fun n (c : Char) => 10 * n + (c.toNat - '0'.toNat) := by
    funext n c
    rw [Nat.mul_comm]
    rfl
  rw [digitsValue, hstep, hfold]

theorem spanDigits_append {ds rest : List Char} (hds : ∀ c ∈ ds, c.isDigit = true)
    (hrest : Delimited rest) : spanDigits (ds ++ rest) = (ds, rest) := by
  have hstop : rest.takeWhile Char.isDigit = [] ∧ rest.dropWhile Char.isDigit = rest := by
    obtain ⟨cs, rfl | rfl⟩ := hrest <;> exact ⟨rfl, rfl⟩
  rw [spanDigits, List.span_eq_takeWhile_dropWhile, List.takeWhile_append_of_pos hds,
    List.dropWhile_append_of_pos hds, hstop.1, hstop.2, List.append_nil]

/-- Only zero begins with a zero. -/
theorem head_toDigits_ne_zero {n : ℕ} (h : n ≠ 0) : (Nat.toDigits 10 n).head? ≠ some '0' := by
  induction n using Nat.strong_induction_on with
  | _ n ih =>
  by_cases hlt : n < 10
  · interval_cases n <;> first | exact absurd rfl h | decide
  · rw [Nat.toDigits_of_base_le (by decide) (by omega), List.head?_append]
    have hdiv := ih (n / 10) (by omega) (by omega)
    cases hhead : (Nat.toDigits 10 (n / 10)).head? with
    | none => exact absurd (List.head?_eq_none_iff.mp hhead) Nat.toDigits_ne_nil
    | some c =>
      rw [hhead] at hdiv
      exact hdiv

/-- A number has no more digits than the reader allows. -/
def Reader.Allows (r : Reader) (n : ℕ) : Prop :=
  (r.maxDigits.any fun limit => limit < (Nat.toDigits 10 n).length) = false

/-- Reading the digits of a number. -/
theorem parseUnsigned_toDigits (negative : Bool) {n : ℕ} (hn : r.Allows n) {rest : List Char}
    (hrest : Delimited rest) :
    parseUnsigned r negative (Nat.toDigits 10 n ++ rest) =
      .ok (.int ((if negative then -1 else 1) * n), rest) := by
  -- The number ends at its delimiter, so it is an integer.
  have hfraction : parseFraction rest = (none, rest) := by
    obtain ⟨cs, rfl | rfl⟩ := hrest <;> rfl
  have hexponent : parseExponent rest = (none, rest) := by
    obtain ⟨cs, rfl | rfl⟩ := hrest <;> rfl
  have hdigits : ∀ c ∈ Nat.toDigits 10 n, c.isDigit = true := fun c hc =>
    Nat.isDigit_of_mem_toDigits (by decide) (by decide) hc
  have hspan := spanDigits_append hdigits hrest
  have hvalue := digitsValue_toDigits n
  by_cases hzero : n = 0
  · subst hzero
    rw [Reader.Allows, Nat.toDigits_zero] at hn
    rw [Nat.toDigits_zero] at hvalue ⊢
    simp only [parseUnsigned, List.cons_append, List.nil_append, hfraction, hexponent, hvalue, hn]
    rfl
  · have hhead := head_toDigits_ne_zero hzero
    obtain ⟨c, cs, hcs⟩ := List.exists_cons_of_ne_nil (Nat.toDigits_ne_nil (n := n) (b := 10))
    rw [Reader.Allows, hcs] at hn
    rw [hcs] at hspan hvalue hhead ⊢
    have hc : c ≠ '0' := fun h => hhead (by rw [h]; rfl)
    rw [parseUnsigned, hspan]
    · simp only [hfraction, hexponent, hvalue, hn]
      rfl
    · exact fun _ heq => hc (List.cons.inj heq).1

/-- Reading a number that was written. -/
theorem parseScalar_dumpInt {i : ℤ} (hi : r.Allows i.natAbs) {rest : List Char}
    (hrest : Delimited rest) : parseScalar r (dumpInt i ++ rest) = .ok (.int i, rest) := by
  obtain ⟨c, cs, hcs⟩ := List.exists_cons_of_ne_nil (Nat.toDigits_ne_nil (n := i.natAbs) (b := 10))
  have hdigit : c.isDigit = true :=
    Nat.isDigit_of_mem_toDigits (b := 10) (n := i.natAbs) (by decide) (by decide)
      (by rw [hcs]; exact List.mem_cons_self)
  -- The first character is a digit, so none of the other forms of a scalar begins here.
  have hletter (d : Char) (hd : d.isDigit = false) : c ≠ d := by
    rintro rfl
    rw [hd] at hdigit
    cases hdigit
  unfold dumpInt
  split_ifs with hneg
  · have hunsigned := parseUnsigned_toDigits true hi hrest
    rw [hcs] at hunsigned ⊢
    rw [List.cons_append, parseScalar, hunsigned]
    · refine congrArg (fun j => Except.ok (PyVal.int j, rest)) ?_
      simp only [↓reduceIte]
      omega
    · intro cs' heq
      exact hletter 'I' (by decide) (List.cons.inj heq).1
  · have hunsigned := parseUnsigned_toDigits false hi hrest
    rw [hcs] at hunsigned ⊢
    rw [parseScalar, hunsigned]
    · refine congrArg (fun j => Except.ok (PyVal.int j, rest)) ?_
      simp only [↓reduceIte, Bool.false_eq_true]
      omega
    all_goals
      intro cs' heq
      exact absurd (List.cons.inj heq).1 (hletter _ (by decide))

/-- A number begins with a sign or a digit. -/
theorem dumpInt_cons (i : ℤ) :
    ∃ c cs, dumpInt i = c :: cs ∧ (c = '-' ∨ c.isDigit = true) := by
  unfold dumpInt
  split_ifs with hneg
  · exact ⟨_, _, rfl, Or.inl rfl⟩
  · obtain ⟨c, cs, hcs⟩ :=
      List.exists_cons_of_ne_nil (Nat.toDigits_ne_nil (n := i.natAbs) (b := 10))
    refine ⟨c, cs, hcs, Or.inr ?_⟩
    exact Nat.isDigit_of_mem_toDigits (b := 10) (n := i.natAbs) (by decide) (by decide)
      (by rw [hcs]; exact List.mem_cons_self)

/-- A string is read, and a number without too many digits. -/
def Reader.AllowsLeaf (r : Reader) : String ⊕ ℤ → Prop
  | .inl _ => True
  | .inr i => r.Allows i.natAbs

theorem Reader.allowsLeaf (h : r.maxDigits = none) (leaf : String ⊕ ℤ) : r.AllowsLeaf leaf := by
  cases leaf with
  | inl s => trivial
  | inr i =>
    rw [AllowsLeaf, Allows, h]
    rfl

/-- Reading a string or a number that was written. -/
theorem parseValue_dumpLeaf (fuel : ℕ) (depth : Option ℕ) {leaf : String ⊕ ℤ}
    (hleaf : r.AllowsLeaf leaf) {rest : List Char} (hrest : Delimited rest) :
    parseValue r (fuel + 1) depth (dumpLeaf leaf ++ rest) = .ok (leafValue leaf, rest) := by
  cases leaf with
  | inl s => exact parseValue_dumpString fuel depth s rest
  | inr i =>
    have hscalar := parseScalar_dumpInt hleaf hrest
    obtain ⟨c, cs, hcs, hc⟩ := dumpInt_cons i
    -- A number begins with its sign or a digit.
    have hother (d : Char) (hd : d ≠ '-' ∧ d.isDigit = false) : c ≠ d := by
      rintro rfl
      rcases hc with hc | hc
      · exact hd.1 hc
      · rw [hd.2] at hc
        cases hc
    simp only [dumpLeaf, leafValue]
    rw [hcs, List.cons_append] at hscalar ⊢
    rw [parseValue, if_neg (hother quote (by decide)), hscalar]
    · exact hother '[' (by decide)
    · exact hother '{' (by decide)

/-- A value that was written does not begin with a space. -/
theorem skipSpaces_dumpLeaf (leaf : String ⊕ ℤ) (rest : List Char) :
    skipSpaces (' ' :: (dumpLeaf leaf ++ rest)) = dumpLeaf leaf ++ rest := by
  have hspace (cs : List Char) : skipSpaces (' ' :: cs) = skipSpaces cs :=
    List.dropWhile_cons_of_pos (by decide)
  rw [hspace]
  cases leaf with
  | inl s => exact skipSpaces_of_not_space (by decide) _
  | inr i =>
    obtain ⟨c, cs, hcs, hc⟩ := dumpInt_cons i
    simp only [dumpLeaf, hcs, List.cons_append]
    refine skipSpaces_of_not_space ?_ _
    -- Neither a sign nor a digit is a blank.
    rcases hc with rfl | hc
    · decide
    · by_contra hspace
      have hchar : c = ' ' ∨ c = '\t' ∨ c = '\n' ∨ c = '\r' := by
        simp only [isSpace, Bool.not_eq_false, Bool.or_eq_true, decide_eq_true_eq] at hspace
        tauto
      rcases hchar with rfl | rfl | rfl | rfl <;> cases hc

/-- A member of an object: its key, and a value with its text. -/
structure Member where
  key : String
  text : List Char
  value : PyVal

/-- The text of a member. -/
def Member.written (m : Member) : List Char := dumpString m.key ++ ':' :: ' ' :: m.text

/-- So much nesting is left. -/
def HasRoom (nesting : ℕ) (depth : Option ℕ) : Prop := ∀ limit, depth = some limit → nesting ≤ limit

theorem hasRoom_none (nesting : ℕ) : HasRoom nesting none := fun _ h => by cases h

/-- Every interpreter has room for an object that holds lists or objects. -/
theorem hasRoom_depth [Python] {nesting : ℕ} (h : nesting ≤ 2) : HasRoom nesting (some Python.depth) := by
  rintro limit ⟨⟩
  exact h.trans Python.two_le_depth

/-- There is room for one more array or object. -/
theorem HasRoom.nest {nesting : ℕ} {depth : Option ℕ} (h : HasRoom (nesting + 1) depth) (what : String) :
    ∃ inner, nest what depth = .ok inner ∧ HasRoom nesting inner := by
  match depth with
  | none => exact ⟨none, rfl, hasRoom_none nesting⟩
  | some 0 => exact absurd (h 0 rfl) (by omega)
  | some (limit + 1) =>
    refine ⟨some limit, rfl, fun limit' heq => ?_⟩
    obtain rfl := Option.some.inj heq
    exact Nat.le_of_succ_le_succ (h (limit + 1) rfl)

/-- The value is read back from its text with the fuel, or more, where there is room for it. -/
structure Member.ReadWith (r : Reader) (m : Member) (need nesting : ℕ) : Prop where
  value : ∀ fuel ≥ need, ∀ depth, HasRoom nesting depth → ∀ rest, Delimited rest →
    parseValue r fuel depth (m.text ++ rest) = .ok (m.value, rest)
  start : ∀ rest, skipSpaces (' ' :: (m.text ++ rest)) = m.text ++ rest

/-- The text of members. -/
def membersText (ms : List Member) : List Char := List.intercalate [',', ' '] (ms.map Member.written)

section Members

variable {need nesting : ℕ} {depth : Option ℕ}

/-- Reading one member of an object that was written. -/
theorem parseMembers_member {m : Member} {fuel : ℕ} (hm : m.ReadWith r need nesting) (hfuel : need ≤ fuel)
    (hdepth : HasRoom nesting depth) (d : PyDict) {c : Char} (hc : c = ',' ∨ c = '}') (cs : List Char) :
    parseMembers r (fuel + 1) depth (m.written ++ c :: cs) d =
      if c = '}' then .ok (.dict (PyDict.set d m.key m.value), cs)
      else parseMembers r fuel depth (skipSpaces cs) (PyDict.set d m.key m.value) := by
  have hrest : Delimited (c :: cs) := by
    rcases hc with rfl | rfl
    · exact ⟨cs, Or.inl rfl⟩
    · exact ⟨cs, Or.inr rfl⟩
  have hvalue := hm.value fuel hfuel depth hdepth (c :: cs) hrest
  have hkey := parseString_dumped r.standIn m.key.toList (':' :: ' ' :: (m.text ++ c :: cs))
  have hcolon : skipSpaces (':' :: ' ' :: (m.text ++ c :: cs)) = ':' :: ' ' :: (m.text ++ c :: cs) :=
    skipSpaces_of_not_space (by decide) _
  have hspace := hm.start (c :: cs)
  have hdelimiter : skipSpaces (c :: cs) = c :: cs := by
    rcases hc with rfl | rfl <;> exact skipSpaces_of_not_space (by decide) _
  -- Key, colon, blank, value, and what delimits it.
  have htext : m.written ++ c :: cs =
      quote :: (m.key.toList.flatMap escape ++ quote :: ':' :: ' ' :: (m.text ++ c :: cs)) := by
    simp [Member.written, dumpString]
  rw [htext, parseMembers.eq_def]
  simp only [hkey, hcolon, hspace, hvalue, bind, Except.bind, hdelimiter, ↓reduceIte,
    String.ofList_toList]
  rcases hc with rfl | rfl <;> rfl

/-- The members of an object begin with a quotation mark. -/
theorem membersText_cons (m : Member) (ms : List Member) :
    ∃ cs, membersText (m :: ms) ++ ['}'] = quote :: cs := by
  rw [membersText]
  cases ms with
  | nil => exact ⟨_, by rw [List.map_singleton, List.intercalate_singleton]; rfl⟩
  | cons m' ms => exact ⟨_, by rw [List.map_cons, List.map_cons, List.intercalate_cons_cons]; rfl⟩

/-- Reading the members of an object that was written, whatever is behind it. -/
theorem parseMembers_membersText (m : Member) (ms : List Member)
    (hms : ∀ m' ∈ m :: ms, m'.ReadWith r need nesting) (d : PyDict) {fuel : ℕ}
    (hfuel : need + ms.length ≤ fuel) (hdepth : HasRoom nesting depth) (rest : List Char) :
    parseMembers r (fuel + 1) depth (membersText (m :: ms) ++ '}' :: rest) d =
      .ok (.dict ((m :: ms).foldl (fun d m => PyDict.set d m.key m.value) d), rest) := by
  induction ms generalizing m d fuel with
  | nil =>
    have hread := parseMembers_member (hms m List.mem_cons_self) hfuel hdepth d (Or.inr rfl) rest
    rw [membersText, List.map_singleton, List.intercalate_singleton, hread, if_pos rfl]
    rfl
  | cons m' ms ih =>
    rw [List.length_cons] at hfuel
    obtain ⟨fuel, rfl⟩ := Nat.exists_eq_succ_of_ne_zero (show fuel ≠ 0 by omega)
    have hnext := ih m' (fun m'' hm'' => hms m'' (List.mem_cons_of_mem _ hm''))
      (PyDict.set d m.key m.value) (show need + ms.length ≤ fuel by omega)
    -- The blank behind a comma is skipped, and the quotation mark is not.
    have htail : skipSpaces (' ' :: (membersText (m' :: ms) ++ '}' :: rest)) =
        membersText (m' :: ms) ++ '}' :: rest := by
      obtain ⟨cs, hcs⟩ := membersText_cons m' ms
      have hcs' := congrArg (· ++ rest) hcs
      simp only [List.append_assoc, List.cons_append, List.nil_append] at hcs'
      rw [hcs']
      exact (List.dropWhile_cons_of_pos (by decide)).trans (skipSpaces_of_not_space (by decide) _)
    rw [membersText, List.map_cons, List.map_cons, List.intercalate_cons_cons, List.append_assoc,
      List.append_assoc]
    refine (parseMembers_member (hms m List.mem_cons_self) (by omega) hdepth d (Or.inl rfl) _).trans ?_
    rw [if_neg (by decide)]
    exact (congrArg (fun cs => parseMembers r (fuel + 1) depth cs _) htail).trans hnext

/-- Reading an object that was written, whatever is behind it. -/
theorem parseValue_membersText (m : Member) (ms : List Member)
    (hms : ∀ m' ∈ m :: ms, m'.ReadWith r need nesting) {fuel : ℕ} (hfuel : need + ms.length + 2 ≤ fuel)
    (hdepth : HasRoom (nesting + 1) depth) (rest : List Char) :
    parseValue r fuel depth ('{' :: (membersText (m :: ms) ++ '}' :: rest)) =
      .ok (.dict ((m :: ms).foldl (fun d m => PyDict.set d m.key m.value) []), rest) := by
  obtain ⟨fuel, rfl⟩ := Nat.exists_eq_add_of_le' (show 2 ≤ fuel by omega)
  obtain ⟨inner, hnest, hinner⟩ := hdepth.nest "object"
  have hmembers := parseMembers_membersText m ms hms [] (show need + ms.length ≤ fuel by omega) hinner rest
  -- The first member begins with a quotation mark, so the object is not empty.
  obtain ⟨cs, hcs⟩ := membersText_cons m ms
  have hcs' := congrArg (· ++ rest) hcs
  simp only [List.append_assoc, List.cons_append, List.nil_append] at hcs'
  have hopen : skipSpaces (quote :: (cs ++ rest)) = quote :: (cs ++ rest) :=
    skipSpaces_of_not_space (by decide) _
  rw [hcs'] at hmembers ⊢
  rw [parseValue.eq_def]
  simp only [hnest, bind, Except.bind, hopen]
  split
  · rename_i heq
    exact absurd heq (by simp [quote])
  · exact hmembers

/-- The object of the members is read back. -/
theorem read_members (m : Member) (ms : List Member) (hms : ∀ m' ∈ m :: ms, m'.ReadWith r need nesting)
    (hdepth : HasRoom (nesting + 1) depth) :
    read r depth (String.ofList ('{' :: (membersText (m :: ms) ++ ['}']))) =
      .ok (.dict ((m :: ms).foldl (fun d m => PyDict.set d m.key m.value) [])) := by
  have hopen : skipSpaces ('{' :: (membersText (m :: ms) ++ ['}'])) =
      '{' :: (membersText (m :: ms) ++ ['}']) := skipSpaces_of_not_space (by decide) _
  -- There is as much fuel as the text and the members need.
  have hfuel : 2 * ('{' :: (membersText (m :: ms) ++ ['}'])).length <
      2 * ('{' :: (membersText (m :: ms) ++ ['}'])).length + (need + ms.length + 2) := by omega
  have hvalue := parseValue_membersText m ms hms
    (show need + ms.length + 2 ≤ 2 * ('{' :: (membersText (m :: ms) ++ ['}'])).length +
      (need + ms.length + 2) by omega) hdepth []
  rw [read_eq r depth _ (by rw [String.toList_ofList]; exact hfuel)]
  simp only [String.toList_ofList, hopen, hvalue, bind, Except.bind]
  rfl

end Members

/-- A string or a number as a member. -/
def leafMember (m : String × (String ⊕ ℤ)) : Member := ⟨m.1, dumpLeaf m.2, leafValue m.2⟩

theorem readWith_leafMember {m : String × (String ⊕ ℤ)} (hm : r.AllowsLeaf m.2) :
    (leafMember m).ReadWith r 1 0 where
  value fuel hfuel depth _ rest hrest := by
    obtain ⟨fuel, rfl⟩ := Nat.exists_eq_succ_of_ne_zero (show fuel ≠ 0 by omega)
    exact parseValue_dumpLeaf fuel depth hm hrest
  start rest := skipSpaces_dumpLeaf m.2 rest

/-- Reading inverts writing for an object with at least one member. -/
theorem read_dumpsObject (m : String × (String ⊕ ℤ)) (ms : List (String × (String ⊕ ℤ)))
    (hms : ∀ m' ∈ m :: ms, r.AllowsLeaf m'.2) {depth : Option ℕ} (hdepth : HasRoom 1 depth) :
    read r depth (dumpsObject (m :: ms)) =
      .ok (.dict ((m :: ms).foldl (fun d m => PyDict.set d m.1 (leafValue m.2)) [])) := by
  have htext : List.intercalate [',', ' '] ((m :: ms).map memberText) =
      membersText (leafMember m :: ms.map leafMember) := by
    rw [membersText, ← List.map_cons, List.map_map]
    rfl
  have hread : ∀ m' ∈ leafMember m :: ms.map leafMember, m'.ReadWith r 1 0 := by
    intro m' hm'
    rw [← List.map_cons] at hm'
    obtain ⟨m'', hm'', rfl⟩ := List.mem_map.mp hm'
    exact readWith_leafMember (hms m'' hm'')
  rw [dumpsObject, htext, read_members _ _ hread hdepth, ← List.map_cons, List.foldl_map]
  rfl

/-- Reading inverts writing for an object with one member. -/
theorem read_dumps_singleton (key value : String) {depth : Option ℕ} (hdepth : HasRoom 1 depth) :
    read r depth (dumps [(key, value)]) = .ok (.dict [(key, .str value)]) := by
  refine read_dumpsObject (key, .inl value) [] (fun m hm => ?_) hdepth
  obtain rfl := List.mem_singleton.mp hm
  trivial

/-! ### Lists of strings -/

/-- The text of a list of strings. -/
def dumpStrings (ss : List String) : List Char :=
  '[' :: (List.intercalate [',', ' '] (ss.map dumpString) ++ [']'])

theorem parseElements_dumpStrings (s : String) (ss : List String) (xs : List PyVal) {fuel : ℕ}
    (hfuel : ss.length < fuel) (depth : Option ℕ) (rest : List Char) :
    parseElements r (fuel + 1) depth
        (List.intercalate [',', ' '] ((s :: ss).map dumpString) ++ ']' :: rest) xs =
      .ok (.list (xs ++ (s :: ss).map .str), rest) := by
  induction ss generalizing s xs fuel with
  | nil =>
    obtain ⟨fuel, rfl⟩ := Nat.exists_eq_succ_of_ne_zero (show fuel ≠ 0 by omega)
    have hclose : skipSpaces (']' :: rest) = ']' :: rest := skipSpaces_of_not_space (by decide) _
    rw [List.map_singleton, List.intercalate_singleton, parseElements, parseValue_dumpString]
    simp only [bind, Except.bind, hclose]
    rfl
  | cons s' ss ih =>
    rw [List.length_cons] at hfuel
    obtain ⟨fuel, rfl⟩ := Nat.exists_eq_succ_of_ne_zero (show fuel ≠ 0 by omega)
    have hcomma (cs : List Char) : skipSpaces (',' :: cs) = ',' :: cs := skipSpaces_of_not_space (by decide) _
    -- The blank behind a comma is skipped, and the quotation mark is not.
    have htail : skipSpaces (' ' :: (List.intercalate [',', ' '] ((s' :: ss).map dumpString) ++
        ']' :: rest)) = List.intercalate [',', ' '] ((s' :: ss).map dumpString) ++ ']' :: rest := by
      refine (List.dropWhile_cons_of_pos (by decide)).trans ?_
      cases ss with
      | nil => exact skipSpaces_of_not_space (by decide) _
      | cons s'' ss => exact skipSpaces_of_not_space (by decide) _
    have hnext := ih s' (xs ++ [.str s]) (show ss.length < fuel by omega)
    rw [List.map_cons, List.map_cons, List.intercalate_cons_cons, List.append_assoc, List.append_assoc,
      parseElements, parseValue_dumpString]
    simp only [bind, Except.bind, List.cons_append, List.nil_append, hcomma]
    rw [← List.map_cons, htail, hnext]
    simp

/-- Reading a list of strings that was written. -/
theorem parseValue_dumpStrings (ss : List String) {fuel : ℕ} (hfuel : ss.length < fuel)
    {depth : Option ℕ} (hdepth : HasRoom 1 depth) (rest : List Char) :
    parseValue r (fuel + 1) depth (dumpStrings ss ++ rest) = .ok (.list (ss.map .str), rest) := by
  obtain ⟨inner, hnest, -⟩ := hdepth.nest "array"
  cases ss with
  | nil =>
    have hclose : skipSpaces (']' :: rest) = ']' :: rest := skipSpaces_of_not_space (by decide) _
    rw [dumpStrings, List.map_nil, List.intercalate_nil, List.nil_append, List.cons_append, parseValue, hnest]
    simp only [bind, Except.bind, List.cons_append, List.nil_append, hclose]
    rfl
  | cons s ss =>
    rw [List.length_cons] at hfuel
    obtain ⟨fuel, rfl⟩ := Nat.exists_eq_succ_of_ne_zero (show fuel ≠ 0 by omega)
    have helements := @parseElements_dumpStrings r s ss [] _ (show ss.length < fuel by omega) inner rest
    -- The first element begins with a quotation mark, so the list is not empty.
    obtain ⟨cs, hcs⟩ : ∃ cs,
        List.intercalate [',', ' '] ((s :: ss).map dumpString) ++ ']' :: rest = quote :: cs := by
      cases ss with
      | nil => exact ⟨_, rfl⟩
      | cons s' ss => exact ⟨_, rfl⟩
    have hopen : skipSpaces (quote :: cs) = quote :: cs := skipSpaces_of_not_space (by decide) cs
    have htext : dumpStrings (s :: ss) ++ rest = '[' :: quote :: cs := by
      rw [dumpStrings, List.cons_append, List.append_assoc, ← hcs]
      rfl
    rw [hcs] at helements
    rw [htext, parseValue.eq_def]
    simp only [hnest, bind, Except.bind, hopen]
    split
    · rename_i heq
      exact absurd heq (by simp [quote])
    · exact helements

end Json
