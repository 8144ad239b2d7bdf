import Mathlib.Data.Int.Notation
import Mathlib.Data.List.Basic
import VoiceAgentPlatform.Lib.Trimming

/-!
# JavaScript string operations

The operations of JavaScript strings that hand-written text parsers use, on lists of characters.
Patterns are ASCII throughout, so working with code points instead of UTF-16 code units makes no
difference.

* `trim`, `splitOn`, `splitSpaces`, `splitLines`, `indexOf`, `lastIndexOf`
* `parseInt10` and `parseInt`: `none` is JavaScript's `NaN`
* `trim_padded`, `indexOf_append`, `lastIndexOf_append`, `capture_append`, `parseInt10_toDigits`: what
  they find in a text that was put together
* `words`: the text up to runs of white space
* `splitCrlf_append`, `indexOf_emptyLine`: texts of lines
* `capture`: the first match of a literal followed by a run of characters, as in
  `/<([^>]+)>/` or `/;tag=([^\s;>]+)/`
-/

namespace JsText

/-- A property of the characters of a text is decided on the text, and not on all characters there are. -/
instance (priority := 2000) decidableForallMem {p : Char → Prop} [DecidablePred p] (s : List Char) :
    Decidable (∀ c ∈ s, p c) := List.decidableBAll p s

/-- The characters `trim` removes and `\s` matches. -/
def isSpace (c : Char) : Bool :=
  c.toNat ∈ [0x09, 0x0A, 0x0B, 0x0C, 0x0D, 0x20, 0xA0, 0x1680, 0x2028, 0x2029, 0x202F, 0x205F,
    0x3000, 0xFEFF] || (0x2000 ≤ c.toNat && c.toNat ≤ 0x200A)

/-- `s.trimStart()`. -/
def trimStart (s : List Char) : List Char := s.dropWhile isSpace

/-- `s.trim()`. -/
def trim (s : List Char) : List Char := (trimStart (trimStart s).reverse).reverse

/-- `s.toLowerCase()` on ASCII letters. -/
def toLower (s : List Char) : List Char := s.map Char.toLower

/-- `s.startsWith(p)`. -/
def startsWith (p s : List Char) : Bool := p.isPrefixOf s

/-- `s.indexOf(p)`, with `none` for `-1`. -/
def indexOf (p : List Char) : List Char → Option ℕ
  | [] => if p = [] then some 0 else none
  | c :: s => if startsWith p (c :: s) then some 0 else (indexOf p s).map (· + 1)

/-- `s.includes(p)`. -/
def includes (p s : List Char) : Bool := (indexOf p s).isSome

/-- `s.lastIndexOf(c)` for a single character, with `none` for `-1`. -/
def lastIndexOf (c : Char) (s : List Char) : Option ℕ :=
  (indexOf [c] s.reverse).map fun i => s.length - 1 - i

/-- `s.split(sep)` for a one-character separator; `cur` is the current piece, reversed. -/
def splitOn (sep : Char) : List Char → List Char → List (List Char)
  | cur, [] => [cur.reverse]
  | cur, c :: s => if c = sep then cur.reverse :: splitOn sep [] s else splitOn sep (c :: cur) s

/-- `s.split('\r\n')`. -/
def splitCrlf : List Char → List Char → List (List Char)
  | cur, '\r' :: '\n' :: s => cur.reverse :: splitCrlf [] s
  | cur, c :: s => splitCrlf (c :: cur) s
  | cur, [] => [cur.reverse]

/-- `s.split(/\r?\n/)`. -/
def splitLines : List Char → List Char → List (List Char)
  | cur, '\r' :: '\n' :: s => cur.reverse :: splitLines [] s
  | cur, '\n' :: s => cur.reverse :: splitLines [] s
  | cur, c :: s => splitLines (c :: cur) s
  | cur, [] => [cur.reverse]

/-- `s.split(/\s+/)`; the flag tells that the run of separators is still going on. -/
def splitSpaces : Bool → List Char → List Char → List (List Char)
  | _, cur, [] => [cur.reverse]
  | true, cur, c :: s => if isSpace c then splitSpaces true cur s else splitSpaces false (c :: cur) s
  | false, cur, c :: s =>
    if isSpace c then cur.reverse :: splitSpaces true [] s else splitSpaces false (c :: cur) s

/-- The value of a digit in base `base ≤ 16`. -/
def digit (base : ℕ) (c : Char) : Option ℕ :=
  let v :=
    if '0' ≤ c ∧ c ≤ '9' then some (c.toNat - '0'.toNat)
    else if 'a' ≤ c ∧ c ≤ 'f' then some (c.toNat - 'a'.toNat + 10)
    else if 'A' ≤ c ∧ c ≤ 'F' then some (c.toNat - 'A'.toNat + 10)
    else none
  v.filter (· < base)

/-- The number a leading run of digits denotes, `none` when there is no digit. -/
def parseDigits (base : ℕ) : Option ℕ → List Char → Option ℕ
  | acc, [] => acc
  | acc, c :: s =>
    match digit base c with
    | some d => parseDigits base (some (acc.getD 0 * base + d)) s
    | none => acc

/-- The sign of a number and the rest of its text. -/
def parseSign : List Char → ℤ × List Char
  | '-' :: s => (-1, s)
  | '+' :: s => (1, s)
  | s => (1, s)

/-- `parseInt(s, 10)`. -/
def parseInt10 (s : List Char) : Option ℤ :=
  let (sign, digits) := parseSign (trimStart s)
  (parseDigits 10 none digits).map fun n => sign * n

/-- `parseInt(s)`: hexadecimal after `0x`, decimal otherwise. -/
def parseInt (s : List Char) : Option ℤ :=
  let (sign, digits) := parseSign (trimStart s)
  match digits with
  | '0' :: 'x' :: hex | '0' :: 'X' :: hex => (parseDigits 16 none hex).map fun n => sign * n
  | _ => (parseDigits 10 none digits).map fun n => sign * n

/-- The first match of the literal `open_` followed by one or more characters outside `stop` and,
when `close` is given, by that character; the run between them is returned. -/
def capture (open_ : List Char) (stop : Char → Bool) (close : Option Char) :
    List Char → Option (List Char)
  | [] => none
  | c :: s =>
    let rest := (c :: s).drop open_.length
    let run := rest.takeWhile fun d => !stop d
    if startsWith open_ (c :: s) && !run.isEmpty &&
        (close.isNone || (rest.drop run.length).head? = close) then some run
    else capture open_ stop close s

/-! ### Trimming -/

/-- Only white space. -/
def Blank (s : List Char) : Prop := ∀ c ∈ s, isSpace c = true

/-- No white space at either end. -/
structure Tight (s : List Char) : Prop where
  head : ∀ c, s.head? = some c → isSpace c = false
  last : ∀ c, s.getLast? = some c → isSpace c = false

theorem blank_nil : Blank [] := fun _ h => absurd h List.not_mem_nil

theorem trimStart_blank_append {a : List Char} (ha : Blank a) (s : List Char) :
    trimStart (a ++ s) = trimStart s := by
  induction a with
  | nil => rfl
  | cons c a ih =>
    have hc : isSpace c = true := ha c List.mem_cons_self
    rw [List.cons_append, trimStart, List.dropWhile_cons_of_pos hc]
    exact ih fun d hd => ha d (List.mem_cons_of_mem _ hd)

theorem trimStart_eq_self {s : List Char} (h : ∀ c, s.head? = some c → isSpace c = false) :
    trimStart s = s :=
  Trimming.dropWhile_eq_self h

theorem Blank.reverse {s : List Char} (h : Blank s) : Blank s.reverse :=
  fun c hc => h c (List.mem_reverse.mp hc)

/-- White space in front of and behind a text is removed. -/
theorem trim_padded {a s b : List Char} (ha : Blank a) (hs : Tight s) (hb : Blank b) :
    trim (a ++ (s ++ b)) = s := by
  rw [trim, trimStart_blank_append ha]
  cases s with
  | nil =>
    -- Blanks only: nothing is left.
    have hnil : trimStart b = [] := by
      have := trimStart_blank_append hb []
      rwa [List.append_nil] at this
    rw [List.nil_append, hnil]
    rfl
  | cons c s =>
    have hhead : trimStart (c :: s ++ b) = c :: s ++ b := trimStart_eq_self fun d hd => hs.head d hd
    rw [hhead, List.reverse_append, trimStart_blank_append hb.reverse, trimStart_eq_self,
      List.reverse_reverse]
    intro d hd
    rw [List.head?_reverse] at hd
    exact hs.last d hd

theorem trim_of_tight {s : List Char} (hs : Tight s) : trim s = s := by
  have := trim_padded (a := []) (b := []) (fun _ h => absurd h List.not_mem_nil) hs
    (fun _ h => absurd h List.not_mem_nil)
  rwa [List.append_nil] at this

/-- A text is its trimmed text with white space around it. -/
theorem exists_trim (s : List Char) : ∃ a b, Blank a ∧ Blank b ∧ s = a ++ (trim s ++ b) := by
  refine ⟨s.takeWhile isSpace, ((trimStart s).reverse.takeWhile isSpace).reverse, ?_, ?_, ?_⟩
  · exact fun c hc => List.mem_takeWhile_imp hc
  · exact fun c hc => List.mem_takeWhile_imp (List.mem_reverse.mp hc)
  · have hback : trim s ++ ((trimStart s).reverse.takeWhile isSpace).reverse = trimStart s := by
      rw [trim, ← List.reverse_append, trimStart, trimStart, List.takeWhile_append_dropWhile,
        List.reverse_reverse]
    rw [hback, trimStart, List.takeWhile_append_dropWhile]

/-- The trimmed text is tight. -/
theorem tight_trim (s : List Char) : Tight (trim s) :=
  ⟨fun _ => Trimming.not_of_head?_trimBoth, fun _ => Trimming.not_of_getLast?_trimBoth⟩

theorem trim_blank_append {a : List Char} (ha : Blank a) (s : List Char) : trim (a ++ s) = trim s := by
  rw [trim, trimStart_blank_append ha]
  rfl

theorem trim_append_blank (s : List Char) {b : List Char} (hb : Blank b) : trim (s ++ b) = trim s := by
  obtain ⟨a', b', ha', hb', hs⟩ := exists_trim s
  have hblank : Blank (b' ++ b) := fun c hc => (List.mem_append.mp hc).elim (hb' c) (hb c)
  rw [hs, List.append_assoc, List.append_assoc]
  rw [trim_padded ha' (tight_trim s) hblank, trim_padded ha' (tight_trim s) hb']

/-! ### Words -/

/-- The words of a text: what is left of it when the runs of white space do not count. -/
def words (s : List Char) : List (List Char) := (s.splitOnP isSpace).filter (· ≠ [])

theorem words_nil : words [] = [] := by
  rw [words, List.splitOnP_nil]
  rfl

/-- White space separates words. -/
theorem words_append_cons (a : List Char) {c : Char} (hc : isSpace c = true) (b : List Char) :
    words (a ++ c :: b) = words a ++ words b := by
  rw [words, List.splitOnP_append_cons a b hc, List.filter_append]
  rfl

theorem words_blank_append {a : List Char} (ha : Blank a) (s : List Char) :
    words (a ++ s) = words s := by
  induction a with
  | nil => rfl
  | cons c a ih =>
    have hc := words_append_cons [] (ha c List.mem_cons_self) (a ++ s)
    rw [words_nil, List.nil_append, List.nil_append] at hc
    rw [List.cons_append, hc]
    exact ih fun d hd => ha d (List.mem_cons_of_mem _ hd)

/-- A nonempty run of white space separates words as well as one blank. -/
theorem words_append_gap (a : List Char) {gap : List Char} (hgap : Blank gap) (hne : gap ≠ [])
    (b : List Char) : words (a ++ (gap ++ b)) = words a ++ words b := by
  match gap with
  | [] => exact absurd rfl hne
  | c :: gap =>
    rw [List.cons_append, words_append_cons a (hgap c List.mem_cons_self),
      words_blank_append fun d hd => hgap d (List.mem_cons_of_mem _ hd)]

theorem words_append_blank (s : List Char) {b : List Char} (hb : Blank b) :
    words (s ++ b) = words s := by
  by_cases hne : b = []
  · rw [hne, List.append_nil]
  · have := words_append_gap s hb hne []
    rwa [List.append_nil, words_nil, List.append_nil] at this

/-- Trimming keeps the words. -/
theorem words_trim (s : List Char) : words (trim s) = words s := by
  obtain ⟨a, b, ha, hb, hs⟩ := exists_trim s
  have : words s = words (trim s) := by
    conv_lhs => rw [hs]
    rw [words_blank_append ha, words_append_blank _ hb]
  exact this.symm

/-! ### Letters -/

theorem toLower_append (a b : List Char) : toLower (a ++ b) = toLower a ++ toLower b := List.map_append

/-- Only the upper-case letters change, to letters. -/
theorem toLower_cases (c : Char) :
    c.toLower = c ∨ 65 ≤ c.toNat ∧ c.toNat ≤ 90 ∧ c.toLower.toNat = c.toNat + 32 := by
  unfold Char.toLower
  split_ifs with hupper
  · refine Or.inr ⟨hupper.1, hupper.2, ?_⟩
    have hhigh : c.val.toNat ≤ 90 := hupper.2
    show (c.val + ('a'.val - 'A'.val)).toNat = c.val.toNat + 32
    rw [UInt32.toNat_add, show ('a'.val - 'A'.val : UInt32).toNat = 32 from rfl]
    omega
  · exact Or.inl rfl

theorem toLower_eq_colon {c : Char} (h : c.toLower = ':') : c = ':' := by
  rcases toLower_cases c with heq | ⟨hlow, -, hsum⟩
  · exact heq.symm.trans h
  · rw [h] at hsum
    have hcolon : ':'.toNat = 58 := rfl
    omega

theorem colon_notMem_toLower {s : List Char} (h : ':' ∉ s) : ':' ∉ toLower s := by
  intro hmem
  obtain ⟨c, hc, hcolon⟩ := List.mem_map.mp hmem
  exact h (toLower_eq_colon hcolon ▸ hc)

/-- White space stays white space. -/
theorem isSpace_of_isSpace_toLower {c : Char} (h : isSpace c.toLower = false) : isSpace c = false := by
  rcases toLower_cases c with heq | ⟨hlow, hhigh, -⟩
  · rwa [heq] at h
  · simp only [isSpace, List.mem_cons, List.not_mem_nil, or_false, Bool.or_eq_false_iff,
      decide_eq_false_iff_not, Bool.and_eq_false_iff]
    omega

/-! ### Lines -/

/-- A text without a line break. -/
def OneLine (s : List Char) : Prop := ¬ ['\r', '\n'] <:+: s

theorem OneLine.of_not_mem {s : List Char} (h : '\r' ∉ s) : OneLine s :=
  fun hmiddle => h (hmiddle.subset List.mem_cons_self)

theorem OneLine.tail {c : Char} {s : List Char} (h : OneLine (c :: s)) : OneLine s :=
  fun hinfix => h (List.infix_cons hinfix)

theorem OneLine.of_append_left {a b : List Char} (h : OneLine (a ++ b)) : OneLine a :=
  fun hmiddle => h (hmiddle.trans (List.prefix_append a b).isInfix)

/-- A character in between that belongs to no line break keeps two lines one. -/
theorem OneLine.append_cons {a b : List Char} {c : Char} (ha : OneLine a) (hb : OneLine b)
    (hcr : c ≠ '\r') (hlf : c ≠ '\n') : OneLine (a ++ c :: b) := by
  induction a with
  | nil =>
    rintro hinfix
    -- A line break lies at the front, or further behind.
    rcases List.infix_cons_iff.mp hinfix with hprefix | hinfix
    · exact hcr (List.cons_prefix_cons.mp hprefix).1.symm
    · exact hb hinfix
  | cons d a ih =>
    rintro hinfix
    rcases List.infix_cons_iff.mp hinfix with hprefix | hinfix
    · obtain ⟨rfl, hnext⟩ := List.cons_prefix_cons.mp hprefix
      match a with
      | [] => exact hlf (List.cons_prefix_cons.mp hnext).1.symm
      | e :: a =>
        obtain ⟨rfl, -⟩ := List.cons_prefix_cons.mp hnext
        exact ha (List.prefix_append ['\r', '\n'] a).isInfix
    · exact ih ha.tail hinfix

/-- A line comes off at its end. -/
theorem splitCrlf_append {line : List Char} (h : OneLine line) (cur rest : List Char) :
    splitCrlf cur (line ++ '\r' :: '\n' :: rest) = (cur.reverse ++ line) :: splitCrlf [] rest := by
  induction line generalizing cur with
  | nil => rw [List.nil_append, splitCrlf, List.append_nil]
  | cons c line ih =>
    rw [List.cons_append, splitCrlf]
    · rw [ih h.tail, List.reverse_cons, List.append_assoc]
      rfl
    · rintro s' hc hs
      match line with
      | [] => cases hs
      | d :: line =>
        obtain ⟨rfl, -⟩ := List.cons.inj hs
        subst hc
        exact h (List.prefix_append ['\r', '\n'] line).isInfix

/-- The last line. -/
theorem splitCrlf_oneLine {line : List Char} (h : OneLine line) (cur : List Char) :
    splitCrlf cur line = [cur.reverse ++ line] := by
  induction line generalizing cur with
  | nil => rw [splitCrlf, List.append_nil]
  | cons c line ih =>
    rw [splitCrlf]
    · rw [ih h.tail, List.reverse_cons, List.append_assoc]
      rfl
    · rintro s' rfl rfl
      exact h (List.prefix_append ['\r', '\n'] s').isInfix

/-- A line without carriage return and line feed comes off at a line feed, with the carriage return
before it. -/
theorem splitLines_append {line : List Char} (h : '\r' ∉ line ∧ '\n' ∉ line) (cur rest : List Char) :
    splitLines cur (line ++ '\n' :: rest) = (cur.reverse ++ line) :: splitLines [] rest ∧
      splitLines cur (line ++ '\r' :: '\n' :: rest) = (cur.reverse ++ line) :: splitLines [] rest := by
  induction line generalizing cur with
  | nil =>
    rw [List.append_nil]
    exact ⟨rfl, rfl⟩
  | cons c line ih =>
    obtain ⟨hcr, hlf⟩ := h
    obtain ⟨hc, hcr⟩ := not_or.mp (mt List.mem_cons.mpr hcr)
    obtain ⟨hc', hlf⟩ := not_or.mp (mt List.mem_cons.mpr hlf)
    -- A character that breaks no line is put to the current one.
    have hstep (t : List Char) : splitLines cur (c :: t) = splitLines (c :: cur) t := by
      rw [splitLines]
      · exact fun _ heq => absurd heq.symm hc
      · exact fun heq => hc' heq.symm
    have hreverse : (c :: cur).reverse ++ line = cur.reverse ++ c :: line := by simp
    rw [List.cons_append, hstep, List.cons_append, hstep, (ih ⟨hcr, hlf⟩ _).1, (ih ⟨hcr, hlf⟩ _).2,
      hreverse]
    exact ⟨rfl, rfl⟩

/-- The line break behind a line is the first one. -/
theorem OneLine.not_prefix {c : Char} {line : List Char} (h : OneLine (c :: line))
    (rest : List Char) : ¬ ['\r', '\n'] <+: c :: (line ++ '\r' :: rest) := by
  intro hprefix
  obtain ⟨rfl, hnext⟩ := List.cons_prefix_cons.mp hprefix
  match line with
  | [] => exact absurd (List.cons_prefix_cons.mp hnext).1 (by decide)
  | d :: line =>
    obtain ⟨rfl, -⟩ := List.cons_prefix_cons.mp hnext
    exact h (List.prefix_append ['\r', '\n'] line).isInfix

theorem startsWith_emptyLine_eq_false {s : List Char} (h : ¬ ['\r', '\n'] <+: s) :
    startsWith ['\r', '\n', '\r', '\n'] s = false := by
  rw [Bool.eq_false_iff]
  intro hstarts
  exact h ((List.prefix_append ['\r', '\n'] ['\r', '\n']).trans (List.isPrefixOf_iff_prefix.mp hstarts))

/-- A line with nothing in it ends a line. -/
theorem indexOf_emptyLine {line : List Char} (h : OneLine line) (rest : List Char) :
    indexOf ['\r', '\n', '\r', '\n'] (line ++ '\r' :: '\n' :: '\r' :: '\n' :: rest) =
      some line.length := by
  induction line with
  | nil => rfl
  | cons c line ih =>
    rw [List.cons_append, indexOf, startsWith_emptyLine_eq_false (h.not_prefix _), ih h.tail]
    rfl

/-- A line in front of a line with something in it. -/
theorem indexOf_emptyLine_append {line rest : List Char} (h : OneLine line)
    (hrest : ¬ ['\r', '\n'] <+: rest) :
    indexOf ['\r', '\n', '\r', '\n'] (line ++ '\r' :: '\n' :: rest) =
      (indexOf ['\r', '\n', '\r', '\n'] rest).map (· + (line.length + 2)) := by
  induction line with
  | nil =>
    have hfirst : startsWith ['\r', '\n', '\r', '\n'] ('\r' :: '\n' :: rest) = false := by
      rw [Bool.eq_false_iff]
      intro hstarts
      -- what follows the line break would be another one
      have hprefix := List.isPrefixOf_iff_prefix.mp hstarts
      rw [List.cons_prefix_cons, List.cons_prefix_cons] at hprefix
      exact hrest hprefix.2.2
    have hsecond : startsWith ['\r', '\n', '\r', '\n'] ('\n' :: rest) = false := rfl
    rw [List.nil_append, indexOf, hfirst, indexOf, hsecond]
    simp only [Bool.false_eq_true, if_false, Option.map_map]
    rfl
  | cons c line ih =>
    rw [List.cons_append, indexOf, startsWith_emptyLine_eq_false (h.not_prefix _), ih h.tail]
    simp only [Bool.false_eq_true, if_false, Option.map_map, List.length_cons]
    rfl

/-! ### Searching -/

theorem startsWith_singleton (c : Char) (s : List Char) :
    startsWith [c] s = true ↔ s.head? = some c := by
  cases s with
  | nil => simp [startsWith]
  | cons d s =>
    simp only [startsWith, List.isPrefixOf, Bool.and_true, beq_iff_eq, List.head?_cons,
      Option.some.injEq]
    exact eq_comm

/-- The first occurrence of a character. -/
theorem indexOf_append {c : Char} {a : List Char} (ha : c ∉ a) (b : List Char) :
    indexOf [c] (a ++ c :: b) = some a.length := by
  induction a with
  | nil => simp [indexOf, startsWith]
  | cons d a ih =>
    obtain ⟨hd, ha⟩ := not_or.mp (mt List.mem_cons.mpr ha)
    rw [List.cons_append, indexOf, if_neg, ih ha]
    · rfl
    · rw [startsWith_singleton]
      exact fun h => hd (Option.some.inj h).symm

/-- A word with its separator begins a text exactly if it is what stands in front of the first
separator. -/
theorem startsWith_word_iff {sep : Char} {word s : List Char} (hword : sep ∉ word) (hs : sep ∉ s)
    (t : List Char) : startsWith (word ++ [sep]) (s ++ sep :: t) = true ↔ s = word := by
  rw [startsWith, List.isPrefixOf_iff_prefix]
  constructor
  · rintro ⟨rest, hrest⟩
    rw [List.append_assoc, List.singleton_append] at hrest
    -- Both texts are cut at their first separator.
    have hlength : word.length = s.length := by
      have hindex := congrArg (indexOf [sep]) hrest
      rw [indexOf_append hword, indexOf_append hs] at hindex
      exact Option.some.inj hindex
    exact (List.append_inj_left hrest hlength).symm
  · rintro rfl
    exact ⟨t, by rw [List.append_assoc, List.singleton_append]⟩

/-- What begins a text does not reach beyond a character that is not in it. -/
theorem startsWith_append_cons {sep : Char} {word : List Char} (hword : sep ∉ word)
    (s t : List Char) : startsWith word (s ++ sep :: t) = startsWith word s := by
  induction s generalizing word with
  | nil =>
    match word with
    | [] => rfl
    | c :: word =>
      have hc : (c == sep) = false := beq_false_of_ne fun h => hword (h ▸ List.mem_cons_self)
      simp [startsWith, List.isPrefixOf, hc]
  | cons d s ih =>
    match word with
    | [] => rfl
    | c :: word =>
      have hrest := ih (not_or.mp (mt List.mem_cons.mpr hword)).2
      simp only [startsWith, List.cons_append, List.isPrefixOf] at hrest ⊢
      rw [hrest]

theorem startsWith_append (pre s : List Char) : startsWith pre (pre ++ s) = true := by
  rw [startsWith, List.isPrefixOf_iff_prefix]
  exact List.prefix_append pre s

theorem startsWith_append_eq_false {pre s : List Char} (h : startsWith pre s = false)
    (more : List Char) : startsWith (pre ++ more) s = false := by
  rw [Bool.eq_false_iff, startsWith, ne_eq, List.isPrefixOf_iff_prefix] at h ⊢
  exact fun hprefix => h ((List.prefix_append pre more).trans hprefix)

theorem indexOf_eq_none {c : Char} {s : List Char} (h : c ∉ s) : indexOf [c] s = none := by
  induction s with
  | nil => rfl
  | cons d s ih =>
    obtain ⟨hd, hs⟩ := not_or.mp (mt List.mem_cons.mpr h)
    rw [indexOf, if_neg, ih hs]
    · rfl
    · rw [startsWith_singleton]
      exact fun h => hd (Option.some.inj h).symm

/-- A word behind white space. -/
theorem splitSpaces_true {w : List Char} (hne : w ≠ []) (hw : ∀ c ∈ w, isSpace c = false)
    (t : List Char) : splitSpaces true [] (w ++ t) = splitSpaces false [] (w ++ t) := by
  match w with
  | [] => exact absurd rfl hne
  | c :: w =>
    have hc := hw c List.mem_cons_self
    rw [List.cons_append, splitSpaces, splitSpaces, hc, if_neg Bool.false_ne_true,
      if_neg Bool.false_ne_true]

/-- A text without white space belongs to the current word. -/
theorem splitSpaces_false {w : List Char} (hw : ∀ c ∈ w, isSpace c = false) (cur t : List Char) :
    splitSpaces false cur (w ++ t) = splitSpaces false (w.reverse ++ cur) t := by
  induction w generalizing cur with
  | nil => rfl
  | cons c w ih =>
    have hc := hw c List.mem_cons_self
    rw [List.cons_append, splitSpaces, hc, if_neg Bool.false_ne_true,
      ih fun d hd => hw d (List.mem_cons_of_mem _ hd), List.reverse_cons, List.append_assoc]
    rfl

/-- Words with one blank between them. -/
theorem splitSpaces_words {w : List Char} (hw : ∀ c ∈ w, isSpace c = false)
    {ws : List (List Char)} (hws : ∀ v ∈ ws, v ≠ [] ∧ ∀ c ∈ v, isSpace c = false) :
    splitSpaces false [] (w ++ ws.flatMap fun v => ' ' :: v) = w :: ws := by
  have hblank : isSpace ' ' = true := rfl
  induction ws generalizing w with
  | nil => rw [splitSpaces_false hw, List.flatMap_nil, splitSpaces, List.append_nil, List.reverse_reverse]
  | cons v ws ih =>
    obtain ⟨⟨hne, hv⟩, hws⟩ := List.forall_mem_cons.mp hws
    rw [splitSpaces_false hw, List.flatMap_cons, List.cons_append, splitSpaces, hblank, if_pos rfl,
      splitSpaces_true hne hv, ih hv hws, List.append_nil, List.reverse_reverse]

/-- A piece comes off in front of the first separator. -/
theorem splitOn_append {sep : Char} {a : List Char} (ha : sep ∉ a) (cur b : List Char) :
    splitOn sep cur (a ++ sep :: b) = (cur.reverse ++ a) :: splitOn sep [] b := by
  induction a generalizing cur with
  | nil => rw [List.nil_append, splitOn, if_pos rfl, List.append_nil]
  | cons c a ih =>
    obtain ⟨hc, ha⟩ := not_or.mp (mt List.mem_cons.mpr ha)
    rw [List.cons_append, splitOn, if_neg (Ne.symm hc), ih ha, List.reverse_cons, List.append_assoc]
    rfl

theorem splitOn_of_notMem {sep : Char} {s : List Char} (hs : sep ∉ s) (cur : List Char) :
    splitOn sep cur s = [cur.reverse ++ s] := by
  induction s generalizing cur with
  | nil => rw [splitOn, List.append_nil]
  | cons c s ih =>
    obtain ⟨hc, hs⟩ := not_or.mp (mt List.mem_cons.mpr hs)
    rw [splitOn, if_neg (Ne.symm hc), ih hs, List.reverse_cons, List.append_assoc]
    rfl

theorem splitOn_ne_nil (sep : Char) (cur s : List Char) : splitOn sep cur s ≠ [] := by
  induction s generalizing cur with
  | nil => exact List.cons_ne_nil _ _
  | cons c s ih =>
    rw [splitOn]
    split_ifs
    · exact List.cons_ne_nil _ _
    · exact ih _

/-- The pieces with the separators between them are the text. -/
theorem intercalate_splitOn (sep : Char) (cur s : List Char) :
    [sep].intercalate (splitOn sep cur s) = cur.reverse ++ s := by
  induction s generalizing cur with
  | nil => exact List.intercalate_singleton.trans (List.append_nil _).symm
  | cons c s ih =>
    rw [splitOn]
    split_ifs with hc
    · rw [List.intercalate_cons_of_ne_nil (splitOn_ne_nil _ _ _), ih, hc, List.append_assoc]
      rfl
    · rw [ih, List.reverse_cons, List.append_assoc]
      rfl

/-- The last occurrence of a character. -/
theorem lastIndexOf_append {c : Char} (a : List Char) {b : List Char} (hb : c ∉ b) :
    lastIndexOf c (a ++ c :: b) = some a.length := by
  have hreverse : (a ++ c :: b).reverse = b.reverse ++ c :: a.reverse := by simp
  rw [lastIndexOf, hreverse, indexOf_append (by simpa using hb)]
  simp

theorem lastIndexOf_eq_none {c : Char} {s : List Char} (h : c ∉ s) : lastIndexOf c s = none := by
  rw [lastIndexOf, indexOf_eq_none (by simpa using h)]
  rfl

/-- What stands between an opening and a closing character. -/
theorem capture_append {o close : Char} {a run : List Char} (ha : o ∉ a) (hne : run ≠ [])
    (hrun : close ∉ run) (b : List Char) :
    capture [o] (fun c => c = close) (some close) (a ++ o :: (run ++ close :: b)) = some run := by
  -- The run ends at the closing character, which it does not have.
  have htake : (run ++ close :: b).takeWhile (fun c => !decide (c = close)) = run := by
    rw [List.takeWhile_append_of_pos, List.takeWhile_cons_of_neg, List.append_nil]
    · simp
    · intro c hc
      simp only [Bool.not_eq_true', decide_eq_false_iff_not]
      rintro rfl
      exact hrun hc
  induction a with
  | nil =>
    have hempty : run.isEmpty = false := by simpa using hne
    simp [capture, startsWith, htake, hempty]
  | cons d a ih =>
    obtain ⟨hd, ha⟩ := not_or.mp (mt List.mem_cons.mpr ha)
    have hstart : startsWith [o] (d :: (a ++ o :: (run ++ close :: b))) = false := by
      rw [Bool.eq_false_iff, ne_eq, startsWith_singleton]
      exact fun h => hd (Option.some.inj h).symm
    rw [List.cons_append, capture, hstart, Bool.false_and, Bool.false_and, if_neg Bool.false_ne_true]
    exact ih ha

theorem capture_eq_none {o : Char} {s : List Char} (h : o ∉ s) (stop : Char → Bool)
    (close : Option Char) : capture [o] stop close s = none := by
  induction s with
  | nil => rfl
  | cons d s ih =>
    obtain ⟨hd, hs⟩ := not_or.mp (mt List.mem_cons.mpr h)
    have hstart : startsWith [o] (d :: s) = false := by
      rw [Bool.eq_false_iff, ne_eq, startsWith_singleton]
      exact fun h => hd (Option.some.inj h).symm
    rw [capture, hstart, Bool.false_and, Bool.false_and, if_neg Bool.false_ne_true]
    exact ih hs

/-! ### Numbers -/

theorem digit_ten_of_isDigit {c : Char} (h : c.isDigit = true) :
    digit 10 c = some (c.toNat - '0'.toNat) := by
  have hrange : '0' ≤ c ∧ c ≤ '9' := by simpa [Char.isDigit, Char.le_def] using h
  have hlt : c.toNat - '0'.toNat < 10 := by
    have hle : c.toNat ≤ '9'.toNat := hrange.2
    have : '9'.toNat = 57 := rfl
    have : '0'.toNat = 48 := rfl
    omega
  rw [digit, if_pos hrange]
  exact Option.filter_some_pos (by simpa using hlt)

theorem isSpace_of_isDigit {c : Char} (h : c.isDigit = true) : isSpace c = false := by
  have hrange : '0' ≤ c ∧ c ≤ '9' := by simpa [Char.isDigit, Char.le_def] using h
  have hlow : '0'.toNat ≤ c.toNat := hrange.1
  have hhigh : c.toNat ≤ '9'.toNat := hrange.2
  have : '0'.toNat = 48 := rfl
  have : '9'.toNat = 57 := rfl
  simp only [isSpace, List.mem_cons, List.not_mem_nil, or_false, Bool.or_eq_false_iff,
    decide_eq_false_iff_not, Bool.and_eq_false_iff]
  omega

/-- Digits in front of something that is no digit. -/
theorem parseDigits_append {ds rest : List Char} (hds : ∀ c ∈ ds, c.isDigit = true)
    (hrest : ∀ c, rest.head? = some c → digit 10 c = none) (acc : ℕ) :
    parseDigits 10 (some acc) (ds ++ rest) = some (Nat.ofDigitChars 10 ds acc) := by
  induction ds generalizing acc with
  | nil =>
    rw [Nat.ofDigitChars_nil, List.nil_append]
    cases rest with
    | nil => rfl
    | cons c rest => rw [parseDigits, hrest c rfl]
  | cons c ds ih =>
    rw [List.cons_append, parseDigits, digit_ten_of_isDigit (hds c List.mem_cons_self),
      Nat.ofDigitChars_cons]
    simp only [Option.getD_some]
    rw [ih (fun d hd => hds d (List.mem_cons_of_mem _ hd)), Nat.mul_comm]

theorem parseSign_of_ne {c : Char} (hminus : c ≠ '-') (hplus : c ≠ '+') (s : List Char) :
    parseSign (c :: s) = (1, c :: s) := by
  unfold parseSign
  split
  · rename_i heq
    exact absurd (List.cons.inj heq).1 hminus
  · rename_i heq
    exact absurd (List.cons.inj heq).1 hplus
  · rfl

theorem isDigit_of_mem_toDigits {n : ℕ} {c : Char} (h : c ∈ Nat.toDigits 10 n) : c.isDigit = true :=
  Nat.isDigit_of_mem_toDigits (by decide) (by decide) h

theorem parseDigits_toDigits (n : ℕ) {rest : List Char}
    (hrest : ∀ c, rest.head? = some c → digit 10 c = none) :
    parseDigits 10 none (Nat.toDigits 10 n ++ rest) = some n := by
  have hdigits : ∀ c ∈ Nat.toDigits 10 n, c.isDigit = true := fun c hc => isDigit_of_mem_toDigits hc
  have hread := Nat.ofDigitChars_ten_toDigits (n := n)
  match hds : Nat.toDigits 10 n with
  | [] => exact absurd hds Nat.toDigits_ne_nil
  | c :: ds =>
    rw [hds] at hdigits hread
    have hfirst := parseDigits_append (fun d hd => hdigits d (List.mem_cons_of_mem _ hd)) hrest
      (c.toNat - '0'.toNat)
    rw [Nat.ofDigitChars_cons, Nat.mul_zero, Nat.zero_add] at hread
    rw [List.cons_append, parseDigits, digit_ten_of_isDigit (hdigits c List.mem_cons_self)]
    simp only [Option.getD_none, Nat.zero_mul, Nat.zero_add, hfirst, hread]

/-- A number that begins with a digit has no sign. -/
theorem parseSign_of_isDigit {c : Char} (hc : c.isDigit = true) (s : List Char) :
    parseSign (c :: s) = (1, c :: s) := by
  refine parseSign_of_ne ?_ ?_ s
  · rintro rfl
    exact absurd hc (by decide)
  · rintro rfl
    exact absurd hc (by decide)

/-- Reading the digits of a number. -/
theorem parseInt10_toDigits (n : ℕ) {rest : List Char}
    (hrest : ∀ c, rest.head? = some c → digit 10 c = none) :
    parseInt10 (Nat.toDigits 10 n ++ rest) = some (n : ℤ) := by
  have hread := parseDigits_toDigits n hrest
  match hds : Nat.toDigits 10 n with
  | [] => exact absurd hds Nat.toDigits_ne_nil
  | c :: ds =>
    have hc : c.isDigit = true := isDigit_of_mem_toDigits (hds ▸ List.mem_cons_self)
    rw [hds, List.cons_append] at hread
    rw [List.cons_append, parseInt10,
      trimStart_eq_self fun d hd => by rw [← Option.some.inj hd]; exact isSpace_of_isDigit hc,
      parseSign_of_isDigit hc]
    simp only [hread, Int.one_mul]
    rfl

theorem parseDigits_append_stop {base : ℕ} {c : Char} (hc : digit base c = none) (s t : List Char)
    (acc : Option ℕ) : parseDigits base acc (s ++ c :: t) = parseDigits base acc s := by
  induction s generalizing acc with
  | nil => simp only [List.nil_append, parseDigits, hc]
  | cons d s ih =>
    rw [List.cons_append, parseDigits, parseDigits]
    cases digit base d with
    | none => rfl
    | some v => exact ih _

/-- A number ends where something else begins. -/
theorem parseInt10_append_stop {c : Char} (hc : digit 10 c = none) (hspace : isSpace c = false)
    (hminus : c ≠ '-') (hplus : c ≠ '+') (s t : List Char) :
    parseInt10 (s ++ c :: t) = parseInt10 s := by
  -- The character is not trimmed, and it is neither a sign nor a digit.
  have htrim : trimStart (s ++ c :: t) = trimStart s ++ c :: t := by
    rw [trimStart, List.dropWhile_append, trimStart]
    split_ifs with h
    · rw [List.isEmpty_iff.mp h, List.nil_append, List.dropWhile_cons_of_neg]
      rw [hspace]
      exact Bool.false_ne_true
    · rfl
  have hsign (s : List Char) :
      parseSign (s ++ c :: t) = ((parseSign s).1, (parseSign s).2 ++ c :: t) := by
    cases s with
    | nil => exact parseSign_of_ne hminus hplus t
    | cons d s =>
      by_cases hd : d = '-'
      · rw [hd]
        rfl
      · by_cases hd' : d = '+'
        · rw [hd']
          rfl
        · rw [List.cons_append, parseSign_of_ne hd hd', parseSign_of_ne hd hd']
          rfl
  rw [parseInt10, parseInt10, htrim, hsign]
  simp only [parseDigits_append_stop hc]

end JsText
