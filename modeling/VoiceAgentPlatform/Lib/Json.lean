import Mathlib.Tactic.NormNum
import VoiceAgentPlatform.Lib.Binary64
import VoiceAgentPlatform.Lib.PyVal
import VoiceAgentPlatform.Lib.Raising

/-!
# Reading JSON text

What Python's `json.loads` makes of a text. A string here has no surrogates without a partner, so each of
them is read as a character that stands for it, whichever that is.

* `read`: the value of a text, or what is raised, within given limits.
* `loads`: with the limits of an interpreter; `value?`: without any.
* `CutOff`: a reading that a limit may have ended; `loads_cutOff` compares `loads` with `value?`.
* `read_eq`: a reading does not depend on the fuel that bounds it.
-/

namespace Json

/-- The quotation mark. -/
def quote : Char := Char.ofNat 34

/-- The white space of JSON. -/
def isSpace (c : Char) : Bool := c = ' ' || c = '\t' || c = '\n' || c = '\r'

/-- Drop leading white space. -/
def skipSpaces (cs : List Char) : List Char := cs.dropWhile isSpace

/-- The value of a hexadecimal digit. -/
def hexValue? (c : Char) : Option ℕ :=
  if '0' ≤ c ∧ c ≤ '9' then some (c.toNat - 48)
  else if 'a' ≤ c ∧ c ≤ 'f' then some (c.toNat - 87)
  else if 'A' ≤ c ∧ c ≤ 'F' then some (c.toNat - 55)
  else none

/-- The value of four hexadecimal digits. -/
def hex4? (a b c d : Char) : Option ℕ := do
  let a ← hexValue? a
  let b ← hexValue? b
  let c ← hexValue? c
  let d ← hexValue? d
  return ((a * 16 + b) * 16 + c) * 16 + d

/-- The character that a short escape stands for. -/
def unescape? (c : Char) : Option Char :=
  if c = quote ∨ c = '\\' ∨ c = '/' then some c
  else if c = 'b' then some (Char.ofNat 8)
  else if c = 'f' then some (Char.ofNat 12)
  else if c = 'n' then some '\n'
  else if c = 'r' then some '\r'
  else if c = 't' then some '\t'
  else none

/-- What is raised on a text. -/
inductive LoadError where
  /-- A `JSONDecodeError`. -/
  | decode
  /-- The `ValueError` of an integer with too many digits. -/
  | digits (n : ℕ)
  /-- The `RecursionError` of an array or an object that is nested too deeply. -/
  | recursion (what : String)
  deriving DecidableEq

/-- A surrogate that begins a pair. -/
def isHighSurrogate (n : ℕ) : Bool := 0xD800 ≤ n && n < 0xDC00

/-- A surrogate that ends a pair. -/
def isLowSurrogate (n : ℕ) : Bool := 0xDC00 ≤ n && n < 0xE000

/-- The character of a pair. -/
def joinSurrogates (high low : ℕ) : Char :=
  Char.ofNat (0x10000 + (high - 0xD800) * 0x400 + (low - 0xDC00))

/-- Read the code points of a string whose opening quotation mark has been read. -/
def parsePoints : List Char → Option (List ℕ × List Char)
  | [] => none
  | c :: cs =>
    if c = quote then some ([], cs)
    else if c = '\\' then
      match cs with
      | 'u' :: a :: b :: c :: d :: rest =>
        match hex4? a b c d with
        | none => none
        | some n => (parsePoints rest).map fun p => (n :: p.1, p.2)
      | e :: rest =>
        match unescape? e with
        | none => none
        | some c => (parsePoints rest).map fun p => (c.toNat :: p.1, p.2)
      | [] => none
    -- A control character has to be escaped.
    else if c.toNat < 32 then none
    else (parsePoints cs).map fun p => (c.toNat :: p.1, p.2)

/-- The character of a code point; `standIn` has those that stand for surrogates without a partner. -/
def pointChar (standIn : ℕ → Char) (n : ℕ) : Char :=
  if isHighSurrogate n || isLowSurrogate n then standIn n else Char.ofNat n

/-- The text of code points, in which a high surrogate and the low one behind it are one character. -/
def pointsText (standIn : ℕ → Char) : List ℕ → List Char
  | [] => []
  | [n] => [pointChar standIn n]
  | n :: m :: ns =>
    if isHighSurrogate n && isLowSurrogate m then joinSurrogates n m :: pointsText standIn ns
    else pointChar standIn n :: pointsText standIn (m :: ns)

/-- Read a string whose opening quotation mark has been read. -/
def parseString (standIn : ℕ → Char) (cs : List Char) : Option (List Char × List Char) :=
  (parsePoints cs).map fun p => (pointsText standIn p.1, p.2)

/-- Split off the leading decimal digits. -/
def spanDigits (cs : List Char) : List Char × List Char := cs.span Char.isDigit

/-- The number that decimal digits denote. -/
def digitsValue (cs : List Char) : ℕ := cs.foldl (fun n c => n * 10 + (c.toNat - 48)) 0

/-- The digits of a fraction, if there is one. -/
def parseFraction (cs : List Char) : Option (List Char) × List Char :=
  match cs with
  | '.' :: rest =>
    match spanDigits rest with
    | ([], _) => (none, cs)
    | (ds, rest) => (some ds, rest)
  | _ => (none, cs)

/-- Whether there is a minus sign, and what is behind the sign. -/
def parseSign (cs : List Char) : Bool × List Char :=
  match cs with
  | '-' :: rest => (true, rest)
  | '+' :: rest => (false, rest)
  | _ => (false, cs)

/-- The exponent, if there is one. -/
def parseExponent (cs : List Char) : Option ℤ × List Char :=
  match cs with
  | e :: rest =>
    if e = 'e' ∨ e = 'E' then
      let (negative, digits) := parseSign rest
      match spanDigits digits with
      -- Without digits the letter does not belong to the number.
      | ([], _) => (none, cs)
      | (ds, rest) => (some (if negative then -digitsValue ds else digitsValue ds), rest)
    else (none, cs)
  | [] => (none, cs)

/-- What a text is read with: the characters that stand for surrogates without a partner, and the largest
number of digits of an integer, if there is one. -/
structure Reader where
  standIn : ℕ → Char
  maxDigits : Option ℕ

/-- The double nearest to a number. -/
def floatOf (q : ℚ) : PyVal :=
  if |q| < 2 ^ 1024 - 2 ^ 970 then .float (Binary64.nearest q) else .infinity (q < 0)

/-- Read a number without its sign. -/
def parseUnsigned (r : Reader) (negative : Bool) (cs : List Char) :
    Except LoadError (PyVal × List Char) :=
  let int? :=
    match cs with
    -- A zero is not followed by further digits.
    | '0' :: rest => some (['0'], rest)
    | _ =>
      match spanDigits cs with
      | ([], _) => none
      | (ds, rest) => some (ds, rest)
  match int? with
  | none => .error .decode
  | some (ds, rest) =>
    let (fraction, rest) := parseFraction rest
    let (exponent, rest) := parseExponent rest
    let sign : ℤ := if negative then -1 else 1
    match fraction, exponent with
    -- A number is an integer if it has neither a fraction nor an exponent.
    | none, none =>
      if r.maxDigits.any (· < ds.length) then .error (.digits ds.length)
      else .ok (.int (sign * digitsValue ds), rest)
    | _, _ =>
      let fs := fraction.getD []
      let mantissa : ℚ := sign * digitsValue (ds ++ fs)
      .ok (floatOf (mantissa * (10 : ℚ) ^ (exponent.getD 0 - fs.length)), rest)

/-- Read the words `null`, `true`, `false`, `NaN`, `Infinity`, or a number. -/
def parseScalar (r : Reader) (cs : List Char) : Except LoadError (PyVal × List Char) :=
  match cs with
  | 'n' :: 'u' :: 'l' :: 'l' :: rest => .ok (.none, rest)
  | 't' :: 'r' :: 'u' :: 'e' :: rest => .ok (.bool true, rest)
  | 'f' :: 'a' :: 'l' :: 's' :: 'e' :: rest => .ok (.bool false, rest)
  | 'N' :: 'a' :: 'N' :: rest => .ok (.nan, rest)
  | 'I' :: 'n' :: 'f' :: 'i' :: 'n' :: 'i' :: 't' :: 'y' :: rest => .ok (.infinity false, rest)
  | '-' :: 'I' :: 'n' :: 'f' :: 'i' :: 'n' :: 'i' :: 't' :: 'y' :: rest => .ok (.infinity true, rest)
  | '-' :: rest => parseUnsigned r true rest
  | _ => parseUnsigned r false cs

/-- The nesting that is left inside an array or an object, of what is left around it; without a limit
there is always some. -/
def nest (what : String) : Option ℕ → Except LoadError (Option ℕ)
  | none => .ok none
  | some 0 => .error (.recursion what)
  | some (depth + 1) => .ok (some depth)

mutual

/-- Read a value, within what is left of the nesting. The fuel bounds the calls. -/
def parseValue (r : Reader) : ℕ → Option ℕ → List Char → Except LoadError (PyVal × List Char)
  | 0, _, _ => .error .decode
  | fuel + 1, depth, cs =>
    match cs with
    | '[' :: rest => do
      let depth ← nest "array" depth
      match skipSpaces rest with
      | ']' :: rest => return (.list [], rest)
      | rest => parseElements r fuel depth rest []
    | '{' :: rest => do
      let depth ← nest "object" depth
      match skipSpaces rest with
      | '}' :: rest => return (.dict [], rest)
      | rest => parseMembers r fuel depth rest []
    | c :: rest =>
      if c = quote then
        match parseString r.standIn rest with
        | none => .error .decode
        | some (s, rest) => .ok (.str (String.ofList s), rest)
      else parseScalar r cs
    | [] => .error .decode

/-- Read the elements of an array up to its end. -/
def parseElements (r : Reader) :
    ℕ → Option ℕ → List Char → List PyVal → Except LoadError (PyVal × List Char)
  | 0, _, _, _ => .error .decode
  | fuel + 1, depth, cs, xs => do
    let (x, rest) ← parseValue r fuel depth cs
    match skipSpaces rest with
    | ']' :: rest => return (.list (xs ++ [x]), rest)
    | ',' :: rest => parseElements r fuel depth (skipSpaces rest) (xs ++ [x])
    | _ => .error .decode

/-- Read the members of an object up to its end. -/
def parseMembers (r : Reader) :
    ℕ → Option ℕ → List Char → PyDict → Except LoadError (PyVal × List Char)
  | 0, _, _, _ => .error .decode
  | fuel + 1, depth, cs, d =>
    match cs with
    | c :: rest =>
      if c = quote then
        match parseString r.standIn rest with
        | none => .error .decode
        | some (key, rest) =>
          match skipSpaces rest with
          | ':' :: rest => do
            let (value, rest) ← parseValue r fuel depth (skipSpaces rest)
            -- A key that is given twice keeps its place and has its last value.
            let d := d.set (String.ofList key) value
            match skipSpaces rest with
            | '}' :: rest => return (.dict d, rest)
            | ',' :: rest => parseMembers r fuel depth (skipSpaces rest) d
            | _ => .error .decode
          | _ => .error .decode
      else .error .decode
    | [] => .error .decode

end

/-- The value of a text, or what is raised. The fuel is enough, see `read_eq`. -/
def read (r : Reader) (depth : Option ℕ) (text : String) : Except LoadError PyVal := do
  let cs := text.toList
  let (value, rest) ← parseValue r (2 * cs.length + 1) depth (skipSpaces cs)
  if (skipSpaces rest).isEmpty then return value else throw .decode

/-- The character that stands for every surrogate where nothing depends on them. -/
def replacement (_ : ℕ) : Char := Char.ofNat 0xFFFD

/-- What reading depends on besides the text: the characters that stand for surrogates without a partner,
and how deep arrays and objects can be nested before the recursion of the parser ends. -/
class Python where
  standIn : ℕ → Char
  depth : ℕ
  two_le_depth : 2 ≤ depth

/-- An interpreter. -/
@[reducible] def samplePython : Python := ⟨replacement, 990, by decide⟩

/-- `json.loads`. -/
def loads [Python] (text : String) : Except LoadError PyVal :=
  read ⟨Python.standIn, some 4300⟩ (some Python.depth) text

/-- The value of a text, whatever its size. -/
def value? (standIn : ℕ → Char) (text : String) : Option PyVal :=
  (read ⟨standIn, none⟩ none text).toOption

/-- The value of a text in UTF-8, if nothing is raised. -/
def loadBytes [Python] (b : ByteArray) : Option PyVal :=
  (String.fromUTF8? b).bind fun text => (loads text).toOption

theorem value?_eq_some_iff {standIn : ℕ → Char} {text : String} {v : PyVal} :
    value? standIn text = some v ↔ read ⟨standIn, none⟩ none text = .ok v := by
  rw [value?]
  cases read ⟨standIn, none⟩ none text <;> simp [Except.toOption]

/-! ### Limits -/

/-- The reading `x` is `y`, or a limit has ended it. -/
def CutOff {α : Type} (x y : Except LoadError α) : Prop := x = y ∨ ∃ e, x = .error e ∧ e ≠ .decode

namespace CutOff

variable {α β : Type}

theorem refl (x : Except LoadError α) : CutOff x x := Or.inl rfl

/-- A reading goes on from what was read before. -/
theorem bind {x y : Except LoadError α} {f g : α → Except LoadError β} (h : CutOff x y)
    (hfg : ∀ a, CutOff (f a) (g a)) : CutOff (x >>= f) (y >>= g) := by
  rcases h with rfl | ⟨e, rfl, he⟩
  · cases x with
    | error e => exact refl _
    | ok a => exact hfg a
  · exact Or.inr ⟨e, rfl, he⟩

/-- What was read is what would be read without the limit. -/
theorem eq_of_ok {x y : Except LoadError α} (h : CutOff x y) {a : α} (hx : x = .ok a) : y = .ok a := by
  rcases h with rfl | ⟨e, rfl, -⟩
  · exact hx
  · cases hx

/-- What is refused is refused without the limit. -/
theorem eq_of_decode {x y : Except LoadError α} (h : CutOff x y) (hx : x = .error .decode) :
    y = .error .decode := by
  rcases h with rfl | ⟨e, rfl, he⟩
  · exact hx
  · exact absurd (Except.error.inj hx) he

end CutOff

variable {standIn : ℕ → Char} {maxDigits : Option ℕ}

theorem parseUnsigned_cutOff (negative : Bool) (cs : List Char) :
    CutOff (parseUnsigned ⟨standIn, maxDigits⟩ negative cs) (parseUnsigned ⟨standIn, none⟩ negative cs) := by
  unfold parseUnsigned
  extract_lets int?
  cases int? with
  | none => exact .refl _
  | some p =>
    obtain ⟨ds, rest⟩ := p
    dsimp only
    split
    · -- Only an integer has a limit.
      rw [if_neg (show ¬ (Option.none.any fun n => decide (n < ds.length)) = true by simp)]
      split_ifs with hlong
      · exact Or.inr ⟨_, rfl, by simp⟩
      · exact .refl _
    · exact .refl _

theorem parseScalar_cutOff (cs : List Char) :
    CutOff (parseScalar ⟨standIn, maxDigits⟩ cs) (parseScalar ⟨standIn, none⟩ cs) := by
  rw [parseScalar.eq_def, parseScalar.eq_def]
  split
  all_goals first
    | exact .refl _
    | exact parseUnsigned_cutOff _ _

/-- Without a limit there is always some nesting left. -/
theorem CutOff.nested {α : Type} (what : String) (depth : Option ℕ) {f : Option ℕ → Except LoadError α}
    {y : Except LoadError α} (h : ∀ inner, CutOff (f inner) y) : CutOff (nest what depth >>= f) y := by
  match depth with
  | none => exact h none
  | some 0 => exact Or.inr ⟨_, rfl, by simp⟩
  | some (depth + 1) => exact h (some depth)

/-- The limits of a reading do nothing but end it. -/
theorem parse_cutOff (fuel : ℕ) :
    (∀ depth cs, CutOff (parseValue ⟨standIn, maxDigits⟩ fuel depth cs)
      (parseValue ⟨standIn, none⟩ fuel none cs)) ∧
    (∀ depth cs xs, CutOff (parseElements ⟨standIn, maxDigits⟩ fuel depth cs xs)
      (parseElements ⟨standIn, none⟩ fuel none cs xs)) ∧
    (∀ depth cs d, CutOff (parseMembers ⟨standIn, maxDigits⟩ fuel depth cs d)
      (parseMembers ⟨standIn, none⟩ fuel none cs d)) := by
  induction fuel with
  | zero => exact ⟨fun _ _ => .refl _, fun _ _ _ => .refl _, fun _ _ _ => .refl _⟩
  | succ fuel ih =>
    obtain ⟨hvalue, helements, hmembers⟩ := ih
    refine ⟨fun depth cs => ?_, fun depth cs xs => ?_, fun depth cs d => ?_⟩
    · rw [parseValue.eq_def, parseValue.eq_def]
      dsimp only
      split
      -- Both readings go into an array or an object, or the limited one ends there.
      · refine .nested "array" depth fun inner => ?_
        show CutOff _ (match skipSpaces _ with
          | ']' :: rest => _
          | rest => _)
        split
        · exact .refl _
        · exact helements _ _ _
      · refine .nested "object" depth fun inner => ?_
        show CutOff _ (match skipSpaces _ with
          | '}' :: rest => _
          | rest => _)
        split
        · exact .refl _
        · exact hmembers _ _ _
      · split_ifs
        · exact .refl _
        · exact parseScalar_cutOff _
      · exact .refl _
    · rw [parseElements, parseElements]
      refine (hvalue depth cs).bind fun p => ?_
      obtain ⟨x, rest⟩ := p
      dsimp only
      split
      · exact .refl _
      · exact helements _ _ _
      · exact .refl _
    · rw [parseMembers.eq_def, parseMembers.eq_def]
      dsimp only
      split
      · split_ifs
        · split
          · exact .refl _
          · split
            · refine (hvalue depth _).bind fun p => ?_
              obtain ⟨value, rest⟩ := p
              dsimp only
              split
              · exact .refl _
              · exact hmembers _ _ _
              · exact .refl _
            · exact .refl _
        · exact .refl _
      · exact .refl _

/-- Reading within the limits of an interpreter gives the value of the text, is refused as the text is, or
is ended by a limit. -/
theorem loads_cutOff [Python] (text : String) :
    CutOff (loads text) (read ⟨Python.standIn, none⟩ none text) := by
  refine (parse_cutOff _).1 _ _ |>.bind fun p => ?_
  exact .refl _

/-- What is read within the limits is the value of the text. -/
theorem value?_of_loads [Python] {text : String} {v : PyVal} (h : loads text = .ok v) :
    value? Python.standIn text = some v :=
  value?_eq_some_iff.mpr ((loads_cutOff text).eq_of_ok h)

/-- A text that is refused has no value. -/
theorem value?_of_decode [Python] {text : String} (h : loads text = .error .decode) :
    value? Python.standIn text = none := by
  rw [value?, (loads_cutOff text).eq_of_decode h]
  rfl

/-- A text is read back from its own bytes. -/
theorem fromUTF8?_toUTF8 (s : String) : String.fromUTF8? s.toUTF8 = some s := by
  rw [String.fromUTF8?, String.toUTF8_eq_toByteArray, dif_pos s.isValidUTF8]
  rfl

/-! ### Fuel -/

section Fuel

variable {r : Reader}

theorem length_skipSpaces_le (cs : List Char) : (skipSpaces cs).length ≤ cs.length :=
  (List.dropWhile_suffix isSpace).length_le

theorem length_of_spanDigits {cs ds rest : List Char} (h : spanDigits cs = (ds, rest)) :
    ds.length + rest.length = cs.length := by
  rw [spanDigits, List.span_eq_takeWhile_dropWhile] at h
  obtain ⟨rfl, rfl⟩ := Prod.mk.inj h
  rw [← List.length_append, List.takeWhile_append_dropWhile]

theorem length_parsePoints {cs rest : List Char} {ns : List ℕ} (h : parsePoints cs = some (ns, rest)) :
    rest.length < cs.length := by
  fun_induction parsePoints cs generalizing ns with
  | case1 | case3 | case5 | case7 | case8 => cases h
  | case2 =>
    obtain ⟨-, rfl⟩ := Prod.mk.inj (Option.some.inj h)
    exact Nat.lt_succ_self _
  | case4 | case6 | case9 =>
    rename_i ih
    obtain ⟨p, hp, heq⟩ := Option.map_eq_some_iff.mp h
    obtain ⟨-, rfl⟩ := Prod.mk.inj heq
    have := ih hp
    simp only [List.length_cons]
    omega

theorem length_parseString {standIn : ℕ → Char} {cs s rest : List Char}
    (h : parseString standIn cs = some (s, rest)) : rest.length < cs.length := by
  obtain ⟨p, hp, heq⟩ := Option.map_eq_some_iff.mp h
  obtain ⟨-, rfl⟩ := Prod.mk.inj heq
  exact length_parsePoints hp

theorem length_parseFraction_le (cs : List Char) : (parseFraction cs).2.length ≤ cs.length := by
  unfold parseFraction
  split
  · split
    · exact le_rfl
    · rename_i ds rest hne heq
      have := length_of_spanDigits heq
      simp only [List.length_cons]
      omega
  · exact le_rfl

theorem length_parseSign_le (cs : List Char) : (parseSign cs).2.length ≤ cs.length := by
  unfold parseSign
  split
  · exact Nat.le_succ _
  · exact Nat.le_succ _
  · exact le_rfl

theorem length_parseExponent_le (cs : List Char) : (parseExponent cs).2.length ≤ cs.length := by
  unfold parseExponent
  split
  · rename_i e rest
    split_ifs
    · have hsign := length_parseSign_le rest
      dsimp only
      split
      · exact le_rfl
      · rename_i ds rest' hne heq
        have := length_of_spanDigits heq
        simp only [List.length_cons]
        omega
    · exact le_rfl
  · exact le_rfl

theorem length_parseUnsigned {negative : Bool} {cs rest : List Char} {v : PyVal}
    (h : parseUnsigned r negative cs = .ok (v, rest)) : rest.length < cs.length := by
  unfold parseUnsigned at h
  extract_lets int? at h
  cases hint : int? with
  | none =>
    rw [hint] at h
    cases h
  | some p =>
    obtain ⟨ds, rest'⟩ := p
    rw [hint] at h
    dsimp only at h
    -- The digits of the number are at least one.
    have hdigits : rest'.length < cs.length := by
      simp only [int?] at hint
      split at hint
      · obtain ⟨-, rfl⟩ := Prod.mk.inj (Option.some.inj hint)
        exact Nat.lt_succ_self _
      · split at hint
        · cases hint
        · rename_i hne heq
          obtain ⟨rfl, rfl⟩ := Prod.mk.inj (Option.some.inj hint)
          have := length_of_spanDigits heq
          have := List.length_pos_iff.mpr hne
          omega
    have hfraction := length_parseFraction_le rest'
    have hexponent := length_parseExponent_le (parseFraction rest').2
    have hrest : (parseExponent (parseFraction rest').2).2 = rest := by
      split at h
      · split_ifs at h
        exact (Prod.mk.inj (Except.ok.inj h)).2
      · exact (Prod.mk.inj (Except.ok.inj h)).2
    rw [hrest] at hexponent
    omega

theorem length_parseScalar {cs rest : List Char} {v : PyVal}
    (h : parseScalar r cs = .ok (v, rest)) : rest.length < cs.length := by
  rw [parseScalar.eq_def] at h
  split at h
  all_goals first
    | exact length_parseUnsigned h
    | exact (length_parseUnsigned h).trans (Nat.lt_succ_self _)
    | (obtain ⟨-, rfl⟩ := Prod.mk.inj (Except.ok.inj h)
       simp only [List.length_cons]
       omega)

/-- What is behind white space and a character. -/
theorem length_of_skipSpaces {cs rest : List Char} {c : Char} (h : skipSpaces cs = c :: rest) :
    rest.length < cs.length := by
  have := length_skipSpaces_le cs
  rw [h, List.length_cons] at this
  omega

/-- Whatever is read takes up at least one character. -/
theorem parse_length (r : Reader) (fuel : ℕ) :
    (∀ depth cs v rest, parseValue r fuel depth cs = .ok (v, rest) → rest.length < cs.length) ∧
    (∀ depth cs xs v rest, parseElements r fuel depth cs xs = .ok (v, rest) → rest.length < cs.length) ∧
    (∀ depth cs d v rest, parseMembers r fuel depth cs d = .ok (v, rest) → rest.length < cs.length) := by
  induction fuel with
  | zero =>
    exact ⟨fun _ _ _ _ h => (by cases h), fun _ _ _ _ _ h => (by cases h), fun _ _ _ _ _ h => (by cases h)⟩
  | succ fuel ih =>
    obtain ⟨hvalue, helements, hmembers⟩ := ih
    refine ⟨fun depth cs v rest h => ?_, fun depth cs xs v rest h => ?_, fun depth cs d v rest h => ?_⟩
    · rw [parseValue.eq_def] at h
      dsimp only at h
      split at h
      · -- An array takes up its bracket, and so does an object below.
        rename_i tail
        obtain ⟨inner, -, h⟩ := Raising.ok_of_bind h
        split at h
        · rename_i hclose
          obtain ⟨-, rfl⟩ := Prod.mk.inj (Except.ok.inj h)
          exact (length_of_skipSpaces hclose).trans (Nat.lt_succ_self _)
        · exact ((helements _ _ _ _ _ h).trans_le (length_skipSpaces_le tail)).trans (Nat.lt_succ_self _)
      · rename_i tail
        obtain ⟨inner, -, h⟩ := Raising.ok_of_bind h
        split at h
        · rename_i hclose
          obtain ⟨-, rfl⟩ := Prod.mk.inj (Except.ok.inj h)
          exact (length_of_skipSpaces hclose).trans (Nat.lt_succ_self _)
        · exact ((hmembers _ _ _ _ _ h).trans_le (length_skipSpaces_le tail)).trans (Nat.lt_succ_self _)
      · split_ifs at h
        · split at h
          · cases h
          · rename_i hstring
            obtain ⟨-, rfl⟩ := Prod.mk.inj (Except.ok.inj h)
            exact (length_parseString hstring).trans (Nat.lt_succ_self _)
        · exact length_parseScalar h
      · cases h
    · rw [parseElements] at h
      obtain ⟨⟨x, tail⟩, hx, h⟩ := Raising.ok_of_bind h
      -- What is behind the first element is shorter by it, and what is read of that shortens it more.
      have hlt := hvalue _ _ _ _ hx
      dsimp only at h
      split at h
      · rename_i hclose
        obtain ⟨-, rfl⟩ := Prod.mk.inj (Except.ok.inj h)
        exact (length_of_skipSpaces hclose).trans hlt
      · rename_i next hcomma
        have hnext := (length_skipSpaces_le next).trans_lt (length_of_skipSpaces hcomma)
        exact ((helements _ _ _ _ _ h).trans hnext).trans hlt
      · cases h
    · rw [parseMembers.eq_def] at h
      dsimp only at h
      split at h
      · rename_i c tail
        split_ifs at h
        split at h
        · cases h
        · rename_i key tail' hkey
          have hkey := (length_parseString hkey).trans (Nat.lt_succ_self tail.length)
          split at h
          · rename_i colon hcolon
            obtain ⟨⟨x, tail''⟩, hx, h⟩ := Raising.ok_of_bind h
            have hlt := ((hvalue _ _ _ _ hx).trans_le (length_skipSpaces_le colon)).trans
              ((length_of_skipSpaces hcolon).trans hkey)
            dsimp only at h
            split at h
            · rename_i hclose
              obtain ⟨-, rfl⟩ := Prod.mk.inj (Except.ok.inj h)
              exact (length_of_skipSpaces hclose).trans hlt
            · rename_i next hcomma
              have hnext := (length_skipSpaces_le next).trans_lt (length_of_skipSpaces hcomma)
              exact ((hmembers _ _ _ _ _ h).trans hnext).trans hlt
            · cases h
          · cases h
      · cases h

/-- With enough fuel, more of it changes nothing. A value needs two calls for each character, and its
elements or members one more. -/
theorem parse_fuel (r : Reader) (fuel : ℕ) :
    (∀ fuel' depth cs, 2 * cs.length < fuel → fuel ≤ fuel' →
      parseValue r fuel' depth cs = parseValue r fuel depth cs) ∧
    (∀ fuel' depth cs xs, 2 * cs.length + 1 < fuel → fuel ≤ fuel' →
      parseElements r fuel' depth cs xs = parseElements r fuel depth cs xs) ∧
    (∀ fuel' depth cs d, 2 * cs.length + 1 < fuel → fuel ≤ fuel' →
      parseMembers r fuel' depth cs d = parseMembers r fuel depth cs d) := by
  induction fuel with
  | zero => exact ⟨fun _ _ _ h => by omega, fun _ _ _ _ h => by omega, fun _ _ _ _ h => by omega⟩
  | succ fuel ih =>
    obtain ⟨hvalue, helements, hmembers⟩ := ih
    refine ⟨fun fuel' depth cs henough hle => ?_, fun fuel' depth cs xs henough hle => ?_,
      fun fuel' depth cs d henough hle => ?_⟩
    -- The other fuel is not zero either, so both readings make the same first step.
    all_goals
      obtain ⟨fuel', rfl⟩ := Nat.exists_eq_succ_of_ne_zero (show fuel' ≠ 0 by omega)
      have hle : fuel ≤ fuel' := Nat.le_of_succ_le_succ hle
    · rw [parseValue.eq_def, parseValue.eq_def]
      dsimp only
      split
      · rename_i tail
        have hskip := length_skipSpaces_le tail
        rw [List.length_cons] at henough
        refine bind_congr fun inner => ?_
        split
        · rfl
        · exact helements _ _ _ _ (by omega) hle
      · rename_i tail
        have hskip := length_skipSpaces_le tail
        rw [List.length_cons] at henough
        refine bind_congr fun inner => ?_
        split
        · rfl
        · exact hmembers _ _ _ _ (by omega) hle
      · rfl
      · rfl
    · rw [parseElements, parseElements, hvalue fuel' depth cs (by omega) hle]
      cases hx : parseValue r fuel depth cs with
      | error e => rfl
      | ok p =>
        obtain ⟨x, tail⟩ := p
        -- What is behind the element is shorter by it and by the comma.
        have hlt := (parse_length r fuel).1 _ _ _ _ hx
        dsimp only [bind, Except.bind]
        split
        · rfl
        · rename_i next hcomma
          have hnext := (length_skipSpaces_le next).trans_lt (length_of_skipSpaces hcomma)
          exact helements _ _ _ _ (by omega) hle
        · rfl
    · rw [parseMembers.eq_def, parseMembers.eq_def]
      dsimp only
      split
      · rename_i c tail
        rw [List.length_cons] at henough
        split_ifs
        · split
          · rfl
          · rename_i key tail' hkey
            have hkey := length_parseString hkey
            split
            · rename_i colon hcolon
              have hcolon := (length_skipSpaces_le colon).trans_lt (length_of_skipSpaces hcolon)
              rw [hvalue fuel' depth _ (by omega) hle]
              cases hx : parseValue r fuel depth (skipSpaces colon) with
              | error e => rfl
              | ok p =>
                obtain ⟨x, tail''⟩ := p
                have hlt := (parse_length r fuel).1 _ _ _ _ hx
                dsimp only [bind, Except.bind]
                split
                · rfl
                · rename_i next hcomma
                  have hnext := (length_skipSpaces_le next).trans_lt (length_of_skipSpaces hcomma)
                  exact hmembers _ _ _ _ (by omega) hle
                · rfl
            · rfl
        · rfl
      · rfl

/-- The fuel of `read` is enough: any larger one gives the same. -/
theorem read_eq (r : Reader) (depth : Option ℕ) (text : String) {fuel : ℕ}
    (h : 2 * text.toList.length < fuel) :
    read r depth text = (do
      let (value, rest) ← parseValue r fuel depth (skipSpaces text.toList)
      if (skipSpaces rest).isEmpty then return value else throw .decode) := by
  have hskip := length_skipSpaces_le text.toList
  rw [read, ← (parse_fuel r (2 * text.toList.length + 1)).1 fuel depth _ (by omega) h]

end Fuel
/-! ### Texts of objects -/

/-- The elements of an array are a list. -/
theorem parseElements_list {r : Reader} {fuel : ℕ} {depth : Option ℕ} {cs rest : List Char}
    {xs : List PyVal} {v : PyVal} (h : parseElements r fuel depth cs xs = .ok (v, rest)) :
    ∃ ys, v = .list ys := by
  induction fuel generalizing cs xs with
  | zero => cases h
  | succ fuel ih =>
    rw [parseElements] at h
    obtain ⟨⟨x, rest'⟩, -, h⟩ := Raising.ok_of_bind h
    dsimp only at h
    split at h
    · cases h
      exact ⟨_, rfl⟩
    · exact ih h
    · cases h

theorem parseUnsigned_ne_dict {r : Reader} {negative : Bool} {cs rest : List Char} {d : PyDict} :
    parseUnsigned r negative cs ≠ .ok (.dict d, rest) := by
  have hfloat (q : ℚ) : floatOf q ≠ .dict d := by
    unfold floatOf
    split_ifs <;> simp
  intro h
  simp only [parseUnsigned] at h
  split at h
  · cases h
  · split at h
    · split at h
      · cases h
      · cases h
    · exact hfloat _ (Prod.ext_iff.mp (Except.ok.inj h)).1

theorem parseScalar_ne_dict {r : Reader} {cs rest : List Char} {d : PyDict} :
    parseScalar r cs ≠ .ok (.dict d, rest) := by
  intro h
  rw [parseScalar.eq_def] at h
  split at h
  all_goals first
    | cases h
    | exact parseUnsigned_ne_dict h

/-- The text of an object is one whose first character opens it. -/
theorem head_of_read_dict {r : Reader} {depth : Option ℕ} {text : String} {d : PyDict}
    (h : read r depth text = .ok (.dict d)) : (skipSpaces text.toList).head? = some '{' := by
  obtain ⟨⟨v, rest⟩, hvalue, h⟩ := Raising.ok_of_bind h
  obtain rfl : v = .dict d := by
    dsimp only at h
    split_ifs at h
    exact Except.ok.inj h
  generalize skipSpaces text.toList = cs at hvalue
  -- The cases are those of the first character.
  rw [parseValue.eq_def] at hvalue
  dsimp only at hvalue
  split at hvalue
  · obtain ⟨inner, -, hvalue⟩ := Raising.ok_of_bind hvalue
    split at hvalue
    · cases hvalue
    · obtain ⟨ys, hlist⟩ := parseElements_list hvalue
      cases hlist
  · rfl
  · split_ifs at hvalue
    · split at hvalue
      · cases hvalue
      · cases hvalue
    · exact absurd hvalue parseScalar_ne_dict
  · cases hvalue

end Json
