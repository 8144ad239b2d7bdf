import Mathlib.Data.List.Forall2
import VoiceAgentPlatform.VoiceServer.SipParser

/-!
# Folded header lines

A SIP header line may be folded: where it has a blank, it may be broken, and the rest then stands on
a continuation line that begins with blanks. `parseSipMessage` appends a continuation line to the
last raw header, which is the line it continues, and to the map entry that `Object.keys` lists last,
which need not be that of this line.

* `FoldedMessage`: a message with the places where its header lines are folded, and its two texts.
* `HeaderLines.Continued`: what continuation lines do.
* `Misfiled`: the names whose map entry a fold changed or missed, and that no later line sets again.
* `Simulated`: the headers read from the two texts, line by line.
* `parse_folded_iff`: the two texts parse alike exactly when no name is misfiled.
-/

namespace VoiceServer

open JsText JsObject

/-! ### Two texts of a message -/

/-- A run of spaces and tabs. -/
structure Blanks where
  chars : List Char
  blank : ∀ c ∈ chars, c = ' ' ∨ c = '\t'

theorem Blanks.isSpace (b : Blanks) : Blank b.chars := by
  intro c hc
  rcases b.blank c hc with rfl | rfl
  · rfl
  · rfl

/-- A place where a header line is folded. -/
structure Fold where
  /-- The blanks of the unfolded line, in whose place the line is broken. -/
  gap : Blanks
  /-- The blanks at the beginning of the continuation line. -/
  indent : Blanks
  /-- The text up to the next place or to the end of the line. -/
  text : List Char
  /-- The blanks at the end of the continuation line. -/
  trail : Blanks
  gap_ne : gap.chars ≠ []
  indent_ne : indent.chars ≠ []
  oneLine : OneLine text

/-- A header line with the places where it is folded. -/
structure FoldedLine where
  /-- The text up to the first place or to the end of the line. -/
  first : List Char
  /-- The blanks at the end of the first line. -/
  trail : Blanks
  folds : List Fold
  oneLine : OneLine first
  head : ∃ c, first.head? = some c ∧ c ≠ ' ' ∧ c ≠ '\t'
  /-- Only what follows the colon is folded. -/
  colon : folds ≠ [] → ':' ∈ first

namespace FoldedLine

/-- The line in one piece. -/
def unfolded (l : FoldedLine) : List Char :=
  l.first ++ l.folds.flatMap fun f => f.gap.chars ++ f.text

/-- The line as it is sent. -/
def physical (l : FoldedLine) : List (List Char) :=
  (l.first ++ l.trail.chars) ::
    l.folds.map fun f => f.indent.chars ++ (f.text ++ f.trail.chars)

/-- The key of the line in the map of headers; a write to `__proto__` leaves nothing. -/
def key (l : FoldedLine) : Option String :=
  (indexOf [':'] l.first).bind fun i =>
    let key := String.ofList (toLower (trim (l.first.take i)))
    if key = "__proto__" then none else some key

/-- The words in front of the first place, behind the colon. -/
def valueWords (l : FoldedLine) : List (List Char) :=
  (indexOf [':'] l.first).elim [] fun i => words (l.first.drop (i + 1))

/-- The words that are carried over to continuation lines. -/
def carried (l : FoldedLine) : List (List Char) := l.folds.flatMap fun f => words f.text

end FoldedLine

/-- A message with the places where its header lines are folded. -/
structure FoldedMessage where
  startLine : List Char
  lines : List FoldedLine
  body : List Char
  oneLine : OneLine startLine

namespace FoldedMessage

/-- The start line and the header lines. -/
def section_ (m : FoldedMessage) (lines : List (List Char)) : List Char :=
  m.startLine ++ lines.flatMap fun line => '\r' :: '\n' :: line

/-- The text of the message with these header lines. -/
def render (m : FoldedMessage) (lines : List (List Char)) : String :=
  String.ofList (m.section_ lines ++ '\r' :: '\n' :: '\r' :: '\n' :: m.body)

/-- The text with every header line in one piece. -/
def unfolded (m : FoldedMessage) : String := m.render (m.lines.map FoldedLine.unfolded)

/-- The text with the header lines folded. -/
def folded (m : FoldedMessage) : String := m.render (m.lines.flatMap FoldedLine.physical)

end FoldedMessage

/-- The words of a header value. -/
def headerWords (s : String) : List (List Char) := words s.toList

/-- Two parsed messages with the same contents up to runs of blanks in the header values. -/
structure SameUpToBlanks (a b : SipMessage) : Prop where
  method : a.method = b.method
  requestUri : a.requestUri = b.requestUri
  statusCode : a.statusCode = b.statusCode
  reasonPhrase : a.reasonPhrase = b.reasonPhrase
  keys : a.headers.keys = b.headers.keys
  values : ∀ k, (a.headers.get? k).map headerWords = (b.headers.get? k).map headerWords
  rawHeaders : a.rawHeaders.map headerWords = b.rawHeaders.map headerWords
  body : a.body = b.body

/-! ### Reading the lines of a text -/

theorem Blanks.ne_break {b : Blanks} {c : Char} (h : c ∈ b.chars) : c ≠ '\r' ∧ c ≠ '\n' := by
  rcases b.blank c h with rfl | rfl
  · decide
  · decide

theorem oneLine_nil : OneLine [] := by
  intro h
  exact absurd (List.infix_nil.mp h) (by decide)

theorem Blanks.oneLine_append (b : Blanks) {s : List Char} (h : OneLine s) :
    OneLine (b.chars ++ s) := by
  have hbreak : ∀ c ∈ b.chars, c ≠ '\r' ∧ c ≠ '\n' := fun c hc => b.ne_break hc
  generalize b.chars = chars at hbreak ⊢
  induction chars with
  | nil => exact h
  | cons c chars ih =>
    obtain ⟨hcr, hlf⟩ := hbreak c List.mem_cons_self
    exact oneLine_nil.append_cons (ih fun d hd => hbreak d (List.mem_cons_of_mem _ hd)) hcr hlf

/-- Blanks between two lines make them one. -/
theorem oneLine_append_blanks_append {s t : List Char} (hs : OneLine s) {b : Blanks}
    (hne : b.chars ≠ []) (ht : OneLine t) : OneLine (s ++ (b.chars ++ t)) := by
  obtain ⟨_ | ⟨c, chars⟩, hblank⟩ := b
  · exact absurd rfl hne
  · obtain ⟨hcr, hlf⟩ := Blanks.ne_break (b := ⟨c :: chars, hblank⟩) List.mem_cons_self
    refine hs.append_cons ?_ hcr hlf
    exact Blanks.oneLine_append ⟨chars, fun d hd => hblank d (List.mem_cons_of_mem _ hd)⟩ ht

theorem oneLine_append_blanks {s : List Char} (hs : OneLine s) (b : Blanks) :
    OneLine (s ++ b.chars) := by
  by_cases hne : b.chars = []
  · rwa [hne, List.append_nil]
  · have := oneLine_append_blanks_append hs hne oneLine_nil
    rwa [List.append_nil] at this

/-- A line with something in it. -/
structure FilledLine (line : List Char) : Prop where
  oneLine : OneLine line
  ne : line ≠ []

/-- The end of such a line is the first line break. -/
theorem FilledLine.not_prefix {line : List Char} (h : FilledLine line) (rest : List Char) :
    ¬ ['\r', '\n'] <+: line ++ '\r' :: rest := by
  match line with
  | [] => exact absurd rfl h.ne
  | c :: line => exact h.oneLine.not_prefix rest

namespace FoldedLine

theorem first_ne (l : FoldedLine) : l.first ≠ [] := by
  obtain ⟨c, hc, -⟩ := l.head
  rintro h
  rw [h] at hc
  cases hc

theorem filledLine_unfolded (l : FoldedLine) : FilledLine l.unfolded := by
  refine ⟨?_, fun h => l.first_ne (List.append_eq_nil_iff.mp h).1⟩
  unfold unfolded
  -- the folds come off at the end
  induction l.folds using List.reverseRecOn with
  | nil => simpa using l.oneLine
  | append_singleton folds f ih =>
    rw [List.flatMap_append, List.flatMap_singleton, ← List.append_assoc]
    exact oneLine_append_blanks_append ih f.gap_ne f.oneLine

theorem filledLine_physical (l : FoldedLine) : ∀ line ∈ l.physical, FilledLine line := by
  intro line hline
  rcases List.mem_cons.mp hline with rfl | hfold
  · exact ⟨oneLine_append_blanks l.oneLine l.trail, fun h => l.first_ne (List.append_eq_nil_iff.mp h).1⟩
  · obtain ⟨f, -, rfl⟩ := List.mem_map.mp hfold
    refine ⟨f.indent.oneLine_append (oneLine_append_blanks f.oneLine f.trail), fun h => ?_⟩
    exact f.indent_ne (List.append_eq_nil_iff.mp h).1

end FoldedLine

namespace FoldedMessage

variable (m : FoldedMessage)

/-- The empty line is found behind the last header line. -/
theorem indexOf_render {lines : List (List Char)} (h : ∀ line ∈ lines, FilledLine line) :
    indexOf ['\r', '\n', '\r', '\n'] (m.section_ lines ++ '\r' :: '\n' :: '\r' :: '\n' :: m.body) =
      some (m.section_ lines).length := by
  have hfirst := m.oneLine
  unfold section_
  induction lines generalizing m with
  | nil => simpa using indexOf_emptyLine hfirst m.body
  | cons line lines ih =>
    have hline := h line List.mem_cons_self
    -- the message that begins with this line
    have hrest := ih ⟨line, m.lines, m.body, hline.oneLine⟩
      (fun l hl => h l (List.mem_cons_of_mem _ hl)) hline.oneLine
    simp only at hrest
    have hprefix : ¬ ['\r', '\n'] <+: line ++ (lines.flatMap fun l => '\r' :: '\n' :: l) ++
        '\r' :: '\n' :: '\r' :: '\n' :: m.body := by
      match lines with
      | [] => simpa using hline.not_prefix ('\n' :: '\r' :: '\n' :: m.body)
      | next :: lines => simpa using hline.not_prefix _
    rw [List.flatMap_cons, List.cons_append, List.cons_append, List.append_assoc, List.cons_append,
      List.cons_append, indexOf_emptyLine_append hfirst hprefix, hrest, Option.map_some]
    simp only [List.length_append, List.length_cons]
    congr 1
    omega

/-- The lines are read back. -/
theorem splitCrlf_section {lines : List (List Char)} (h : ∀ line ∈ lines, FilledLine line) :
    splitCrlf [] (m.section_ lines) = m.startLine :: lines := by
  have hfirst := m.oneLine
  unfold section_
  induction lines generalizing m with
  | nil => simpa using splitCrlf_oneLine hfirst []
  | cons line lines ih =>
    have hline := h line List.mem_cons_self
    have hrest := ih ⟨line, m.lines, m.body, hline.oneLine⟩
      (fun l hl => h l (List.mem_cons_of_mem _ hl)) hline.oneLine
    rw [List.flatMap_cons, List.cons_append, List.cons_append, splitCrlf_append hfirst, hrest]
    rfl

/-- What the parser makes of the message. -/
theorem parse_render {lines : List (List Char)} (h : ∀ line ∈ lines, FilledLine line) :
    parseSipMessage (m.render lines) =
      { parseSipMessage (m.render []) with
        headers := (lines.foldl HeaderLines.addLine ⟨∅, []⟩).headers
        rawHeaders := (lines.foldl HeaderLines.addLine ⟨∅, []⟩).rawHeaders } := by
  have hnone : ∀ line ∈ ([] : List (List Char)), FilledLine line := fun _ h => absurd h List.not_mem_nil
  have hdrop (lines : List (List Char)) :
      (m.section_ lines ++ '\r' :: '\n' :: '\r' :: '\n' :: m.body).drop
        ((m.section_ lines).length + 4) = m.body := by
    rw [List.drop_append]
    simp
  simp only [parseSipMessage, render, String.toList_ofList, m.indexOf_render h,
    m.indexOf_render hnone, Option.elim_some, List.take_left', m.splitCrlf_section h,
    m.splitCrlf_section hnone, hdrop, List.headD_cons, List.tail_cons]

end FoldedMessage

/-! ### One header line -/

/-- The keys of the map after a line with this key. -/
def addKey (keys : List String) : Option String → List String
  | none => keys
  | some k => if k ∈ keys then keys else keys ++ [k]

/-- The words of the map entry of a name. -/
def HeaderLines.entry (h : HeaderLines) (k : String) : Option (List (List Char)) :=
  (h.headers.get? k).map headerWords

/-- The name to whose entry a continuation line is appended. -/
def continuedKey (keys : List String) : Option String := (lastKey keys).filter (· ≠ "")

theorem ne_empty_of_continuedKey {keys : List String} {k : String} (h : continuedKey keys = some k) :
    k ≠ "" := by
  simpa using (Option.filter_eq_some_iff.mp h).2

theorem lastKey_of_continuedKey {keys : List String} {k : String} (h : continuedKey keys = some k) :
    lastKey keys = some k :=
  (Option.filter_eq_some_iff.mp h).1

theorem continuedKey_of_lastKey {keys : List String} {k : String} (h : lastKey keys = some k)
    (hne : k ≠ "") : continuedKey keys = some k := by
  rw [continuedKey, h, Option.filter_some, if_pos (by simpa using hne)]

theorem continuedKey_eq_none {keys : List String} (h : ∀ k, lastKey keys = some k → k = "") :
    continuedKey keys = none := by
  rw [continuedKey, Option.filter_eq_none_iff]
  intro k hk
  simp [h k hk]

/-- Continuation lines with the words `w` were read: the last raw header and one map entry got
longer. -/
structure HeaderLines.Continued (h h' : HeaderLines) (w : List (List Char)) : Prop where
  keys : h'.headers.keys = h.headers.keys
  rawHeaders : ∀ raw line, h.rawHeaders = raw ++ [line] →
    ∃ line', h'.rawHeaders = raw ++ [line'] ∧ headerWords line' = headerWords line ++ w
  entry : ∀ k, h'.entry k =
    if continuedKey h.headers.keys = some k then (h.entry k).map (· ++ w) else h.entry k

namespace HeaderLines

theorem Continued.refl (h : HeaderLines) : Continued h h [] where
  keys := rfl
  rawHeaders raw line heq := ⟨line, heq, (List.append_nil _).symm⟩
  entry k := by simp

theorem Continued.trans {h₁ h₂ h₃ : HeaderLines} {w w' : List (List Char)}
    (h : Continued h₁ h₂ w) (h' : Continued h₂ h₃ w') : Continued h₁ h₃ (w ++ w') where
  keys := h'.keys.trans h.keys
  rawHeaders raw line heq := by
    obtain ⟨line₂, heq₂, hwords₂⟩ := h.rawHeaders raw line heq
    obtain ⟨line₃, heq₃, hwords₃⟩ := h'.rawHeaders raw line₂ heq₂
    exact ⟨line₃, heq₃, by rw [hwords₃, hwords₂, List.append_assoc]⟩
  entry k := by
    rw [h'.entry, h.keys, h.entry]
    split_ifs
    · rw [Option.map_map]
      congr 1
      funext words
      exact List.append_assoc words w w'
    · rfl

theorem headerWords_append_more (s : String) (text : List Char) :
    headerWords (s ++ (" " ++ String.ofList (trim text))) = headerWords s ++ words text := by
  simp only [headerWords, String.toList_append, String.toList_ofList]
  have hspace := words_append_cons s.toList (c := ' ') rfl (trim text)
  rw [words_trim] at hspace
  exact hspace

/-- One continuation line. -/
theorem continued_addLine (h : HeaderLines) (f : Fold)
    (hproto : "__proto__" ∉ h.headers.keys) :
    Continued h (h.addLine (f.indent.chars ++ (f.text ++ f.trail.chars))) (words f.text) := by
  -- the line begins with a blank
  have hblank : (startsWith [' '] (f.indent.chars ++ (f.text ++ f.trail.chars)) ||
      startsWith ['\t'] (f.indent.chars ++ (f.text ++ f.trail.chars))) = true := by
    obtain ⟨c, chars, hchars⟩ := List.exists_cons_of_ne_nil f.indent_ne
    have hc := f.indent.blank c (hchars ▸ List.mem_cons_self)
    rw [hchars, Bool.or_eq_true, List.cons_append, startsWith_singleton, startsWith_singleton]
    simpa using hc
  have htrim : trim (f.indent.chars ++ (f.text ++ f.trail.chars)) = trim f.text := by
    rw [trim_blank_append f.indent.isSpace, trim_append_blank _ f.trail.isSpace]
  rw [addLine, if_pos hblank]
  simp only [htrim]
  refine ⟨?_, ?_, fun k => ?_⟩
  · -- only entries that exist are written
    split
    · rename_i last hlast
      split_ifs
      · rfl
      · rw [assign]
        split_ifs
        · rfl
        · rw [OrderedMap.keys_set, if_pos (mem_of_lastKey hlast)]
    · rfl
  · intro raw line hraw
    rw [hraw, List.getLast?_concat]
    refine ⟨_, by simp, headerWords_append_more line f.text⟩
  · cases hlast : lastKey h.headers.keys with
    | none =>
      rw [continuedKey_eq_none (by simp [hlast]), if_neg (by simp)]
      rfl
    | some last =>
      by_cases hempty : last = ""
      · rw [continuedKey_eq_none (by simp [hlast, hempty]), if_neg (by simp)]
        simp only [entry, hempty, if_true]
      · have hmem := mem_of_lastKey hlast
        have hne : last ≠ "__proto__" := fun heq => hproto (heq ▸ hmem)
        obtain ⟨v, hv⟩ := Option.isSome_iff_exists.mp (OrderedMap.mem_keys_iff.mp hmem)
        rw [continuedKey_of_lastKey hlast hempty]
        simp only [entry, hempty, if_false, get?_assign hne, Option.some.injEq]
        by_cases hk : k = last
        · rw [if_pos hk, if_pos hk.symm, hk, hv, Option.map_some, Option.map_some, Option.map_some,
            Option.getD_some, headerWords_append_more]
        · rw [if_neg hk, if_neg fun heq => hk heq.symm]

/-- The continuation lines of a header line. -/
theorem continued_foldl (h : HeaderLines) (folds : List Fold)
    (hproto : "__proto__" ∉ h.headers.keys) :
    Continued h
      ((folds.map fun f => f.indent.chars ++ (f.text ++ f.trail.chars)).foldl addLine h)
      (folds.flatMap fun f => words f.text) := by
  induction folds generalizing h with
  | nil => exact Continued.refl h
  | cons f folds ih =>
    have hfirst := continued_addLine h f hproto
    rw [← hfirst.keys] at hproto
    exact hfirst.trans (ih _ hproto)

/-- A header line with the words `w` behind its first part was read. -/
structure Added (h h' : HeaderLines) (l : FoldedLine) (w : List (List Char)) : Prop where
  keys : h'.headers.keys = addKey h.headers.keys l.key
  rawHeaders : ∃ line, h'.rawHeaders = h.rawHeaders ++ [line] ∧ headerWords line = words l.first ++ w
  entry : ∀ k, h'.entry k = if l.key = some k then some (l.valueWords ++ w) else h.entry k

theorem not_continuation (l : FoldedLine) (s : List Char) :
    (startsWith [' '] (l.first ++ s) || startsWith ['\t'] (l.first ++ s)) = false := by
  obtain ⟨c, hc, hspace, htab⟩ := l.head
  have hhead : (l.first ++ s).head? = some c := by rw [List.head?_append, hc, Option.some_or]
  rw [Bool.or_eq_false_iff, Bool.eq_false_iff, Bool.eq_false_iff, ne_eq, ne_eq, startsWith_singleton,
    startsWith_singleton, hhead]
  exact ⟨fun h => hspace (Option.some.inj h), fun h => htab (Option.some.inj h)⟩

/-- A line with a colon is a header. -/
theorem added_addLine (h : HeaderLines) {l : FoldedLine} (hcolon : ':' ∈ l.first) {s : List Char}
    {w : List (List Char)} (hs : ∀ a, words (a ++ s) = words a ++ w) :
    Added h (h.addLine (l.first ++ s)) l w := by
  obtain ⟨name, value, hfirst, hname⟩ := List.eq_append_cons_of_mem hcolon
  have hdrop (t : List Char) : (name ++ ':' :: t).drop (name.length + 1) = t := by
    rw [List.drop_append]
    simp
  -- The key and the value that the line is stored under, before the three parts.
  have hkey : l.key =
      if String.ofList (toLower (trim name)) = "__proto__" then none
      else some (String.ofList (toLower (trim name))) := by
    rw [FoldedLine.key, hfirst, indexOf_append hname, Option.bind_some, List.take_left' rfl]
  have hvalue : l.valueWords = words value := by
    rw [FoldedLine.valueWords, hfirst, indexOf_append hname, Option.elim_some, hdrop]
  have hstored : headerWords (String.ofList (trim (value ++ s))) = l.valueWords ++ w := by
    rw [headerWords, String.toList_ofList, words_trim, hs, hvalue]
  have hadd : h.addLine (l.first ++ s) =
      ⟨assign h.headers (String.ofList (toLower (trim name))) (String.ofList (trim (value ++ s))),
        h.rawHeaders ++ [String.ofList (l.first ++ s)]⟩ := by
    rw [addLine, if_neg (by rw [not_continuation l s]; exact Bool.false_ne_true), hfirst,
      List.append_assoc, List.cons_append, indexOf_append hname]
    simp only [List.take_left' rfl, hdrop]
  rw [hadd]
  refine ⟨?_, ⟨_, rfl, ?_⟩, fun k => ?_⟩
  · rw [hkey, assign]
    split_ifs
    · rfl
    · rw [OrderedMap.keys_set]
      rfl
  · rw [headerWords, String.toList_ofList, hs]
  · simp only [entry, hkey]
    split_ifs with hproto hk hk
    · cases hk
    · rw [assign, if_pos hproto]
    · rw [Option.some.inj hk] at hproto ⊢
      rw [get?_assign hproto, if_pos rfl, Option.map_some, hstored]
    · rw [get?_assign hproto, if_neg fun heq => hk (congrArg some heq.symm)]

/-- A line without a colon is skipped. -/
theorem addLine_of_not_mem (h : HeaderLines) {l : FoldedLine} (hcolon : ':' ∉ l.first)
    {s : List Char} (hs : ':' ∉ s) : h.addLine (l.first ++ s) = h := by
  rw [addLine, if_neg (by rw [not_continuation l s]; exact Bool.false_ne_true),
    indexOf_eq_none (by simp [hcolon, hs])]

end HeaderLines

theorem Blanks.colon_not_mem (b : Blanks) : ':' ∉ b.chars := by
  intro h
  rcases b.blank _ h with h | h
  · cases h
  · cases h

namespace FoldedLine

theorem folds_eq_nil {l : FoldedLine} (h : ':' ∉ l.first) : l.folds = [] := by
  by_contra hne
  exact h (l.colon hne)

/-- The unfolded line has the words of the folded one. -/
theorem words_unfolded (folds : List Fold) (a : List Char) :
    words (a ++ folds.flatMap fun f => f.gap.chars ++ f.text) =
      words a ++ folds.flatMap fun f => words f.text := by
  induction folds generalizing a with
  | nil => simp
  | cons f folds ih =>
    rw [List.flatMap_cons, List.flatMap_cons, List.append_assoc,
      words_append_gap a f.gap.isSpace f.gap_ne, ih]

/-- The effect of the unfolded line. -/
theorem added_unfolded (h : HeaderLines) {l : FoldedLine} (hcolon : ':' ∈ l.first) :
    HeaderLines.Added h (h.addLine l.unfolded) l l.carried :=
  HeaderLines.added_addLine h hcolon (words_unfolded l.folds)

/-- The effect of the folded line: a header, then its continuation lines. -/
theorem read_physical (h : HeaderLines) {l : FoldedLine} (hcolon : ':' ∈ l.first)
    (hproto : "__proto__" ∉ addKey h.headers.keys l.key) :
    ∃ h', HeaderLines.Added h h' l [] ∧
      HeaderLines.Continued h' (l.physical.foldl HeaderLines.addLine h) l.carried := by
  have hadded : HeaderLines.Added h (h.addLine (l.first ++ l.trail.chars)) l [] :=
    HeaderLines.added_addLine h hcolon fun a => by
      rw [words_append_blank a l.trail.isSpace, List.append_nil]
  rw [← hadded.keys] at hproto
  exact ⟨_, hadded, HeaderLines.continued_foldl _ l.folds hproto⟩

end FoldedLine

/-! ### The lines of a message -/

/-- The keys of the map after these lines. -/
def keysOf (lines : List FoldedLine) : List String := lines.foldl (fun keys l => addKey keys l.key) []

/-- The names whose entries come out wrong when `l` carries words over, after the lines `before`:
none when its own entry is continued, and otherwise its own and the continued one. -/
def misfiles (before : List FoldedLine) (l : FoldedLine) : List String :=
  let continued := continuedKey (keysOf (before ++ [l]))
  if continued = l.key then [] else l.key.toList ++ continued.toList

theorem mem_misfiles {before : List FoldedLine} {l : FoldedLine} {k : String} :
    k ∈ misfiles before l ↔ continuedKey (keysOf (before ++ [l])) ≠ l.key ∧
      (l.key = some k ∨ continuedKey (keysOf (before ++ [l])) = some k) := by
  simp only [misfiles]
  split_ifs with h
  · simp [h]
  · simp [h]

/-- The entry of `k` came out wrong, and no later line set it again. -/
def Misfiled (lines : List FoldedLine) (k : String) : Prop :=
  ∃ before l after, lines = before ++ l :: after ∧ l.carried ≠ [] ∧ k ∈ misfiles before l ∧
    some k ∉ after.map FoldedLine.key

theorem not_misfiled_nil (k : String) : ¬ Misfiled [] k := by
  rintro ⟨before, l, after, hlines, -⟩
  simp at hlines

/-- What one more line does to the misfiled names. -/
theorem misfiled_append_singleton (lines : List FoldedLine) (l : FoldedLine) (k : String) :
    Misfiled (lines ++ [l]) k ↔
      l.carried ≠ [] ∧ k ∈ misfiles lines l ∨ Misfiled lines k ∧ l.key ≠ some k := by
  constructor
  · rintro ⟨before, l', after, hlines, hcarried, hmem, hafter⟩
    -- The line that is misfiled is the last one, or a line before it.
    rcases List.eq_nil_or_concat after with rfl | ⟨after, last, rfl⟩
    · obtain ⟨rfl, hl⟩ := List.append_inj' hlines rfl
      obtain rfl := List.singleton_inj.mp hl
      exact Or.inl ⟨hcarried, hmem⟩
    · have hsplit : lines ++ [l] = (before ++ l' :: after) ++ [last] := by simpa using hlines
      obtain ⟨rfl, hl⟩ := List.append_inj' hsplit rfl
      obtain rfl := List.singleton_inj.mp hl
      rw [List.concat_eq_append, List.map_append, List.mem_append, not_or] at hafter
      refine Or.inr ⟨⟨before, l', after, rfl, hcarried, hmem, hafter.1⟩, fun hkey => hafter.2 ?_⟩
      simp [hkey]
  · rintro (⟨hcarried, hmem⟩ | ⟨⟨before, l', after, rfl, hcarried, hmem, hafter⟩, hkey⟩)
    · exact ⟨lines, l, [], rfl, hcarried, hmem, List.not_mem_nil⟩
    · refine ⟨before, l', after ++ [l], by simp, hcarried, hmem, ?_⟩
      rw [List.map_append, List.mem_append, not_or]
      exact ⟨hafter, by simpa using fun h => hkey h.symm⟩

theorem keysOf_append_singleton (lines : List FoldedLine) (l : FoldedLine) :
    keysOf (lines ++ [l]) = addKey (keysOf lines) l.key := by
  simp [keysOf]

theorem mem_addKey {keys : List String} {key : Option String} {k : String} :
    k ∈ addKey keys key ↔ k ∈ keys ∨ key = some k := by
  match key with
  | none => simp [addKey]
  | some new =>
    simp only [addKey, Option.some.injEq]
    split_ifs with h
    · exact ⟨Or.inl, fun hk => hk.elim id fun heq => heq ▸ h⟩
    · simp [eq_comm]

theorem proto_not_mem_keysOf (lines : List FoldedLine) : "__proto__" ∉ keysOf lines := by
  induction lines using List.reverseRecOn with
  | nil => exact List.not_mem_nil
  | append_singleton lines l ih =>
    rw [keysOf_append_singleton, mem_addKey, not_or]
    refine ⟨ih, fun h => ?_⟩
    simp only [FoldedLine.key, Option.bind_eq_some_iff] at h
    obtain ⟨i, -, hi⟩ := h
    split_ifs at hi with hproto
    exact hproto (Option.some.inj hi)

/-- A name that is not continued is not continued later either, unless it is a new one. -/
theorem continuedKey_addKey_ne {keys : List String} {k : String} (hk : k ∈ keys)
    (h : continuedKey keys ≠ some k) (key : Option String) :
    continuedKey (addKey keys key) ≠ some k := by
  intro hcontinued
  have hne := ne_empty_of_continuedKey hcontinued
  have hlast : lastKey keys ≠ some k := fun hlast => h (continuedKey_of_lastKey hlast hne)
  match key with
  | none => exact h hcontinued
  | some new =>
    simp only [addKey] at hcontinued
    split_ifs at hcontinued with hnew
    · exact h hcontinued
    · refine lastKey_append_ne hlast ?_ (lastKey_of_continuedKey hcontinued)
      rintro rfl
      exact hnew hk

/-- The entry `a` is the entry `b` with more words behind it. -/
def Longer (a b : Option (List (List Char))) : Prop :=
  ∃ ws more, more ≠ [] ∧ a = some (ws ++ more) ∧ b = some ws

theorem Longer.ne {a b : Option (List (List Char))} (h : Longer a b) : a ≠ b := by
  obtain ⟨ws, more, hmore, rfl, rfl⟩ := h
  simpa using hmore

theorem Longer.append {a b : Option (List (List Char))} (h : Longer a b) (w : List (List Char)) :
    Longer (a.map (· ++ w)) b := by
  obtain ⟨ws, more, hmore, rfl, rfl⟩ := h
  exact ⟨ws, more ++ w, fun h => hmore (List.append_eq_nil_iff.mp h).1, by simp, rfl⟩

/-- The headers `f` were read from the folded lines and `u` from the unfolded ones: the entry of a
misfiled name has got words of other lines, or has lost some for good. -/
structure Simulated (lines : List FoldedLine) (f u : HeaderLines) : Prop where
  keys_folded : f.headers.keys = keysOf lines
  keys_unfolded : u.headers.keys = keysOf lines
  rawHeaders : f.rawHeaders.map headerWords = u.rawHeaders.map headerWords
  same : ∀ k, ¬ Misfiled lines k → f.entry k = u.entry k
  differs : ∀ k, Misfiled lines k → Longer (f.entry k) (u.entry k) ∨
    continuedKey (keysOf lines) ≠ some k ∧ Longer (u.entry k) (f.entry k)

/-- The two entries of a name after a line with the carried words `w`: what the folded and the
unfolded text make of the entries before it. -/
structure LineEffect (lines : List FoldedLine) (l : FoldedLine) (k : String)
    (f u f' u' : Option (List (List Char))) : Prop where
  unfolded : u' = if l.key = some k then some (l.valueWords ++ l.carried) else u
  folded : f' =
    let e := if l.key = some k then some l.valueWords else f
    if continuedKey (keysOf (lines ++ [l])) = some k then e.map (· ++ l.carried) else e

namespace LineEffect

variable {lines : List FoldedLine} {l : FoldedLine} {k : String}
variable {f u f' u' : Option (List (List Char))}

/-- A line that misfiles nothing under a name keeps the two entries as they were, or sets both. -/
theorem of_not_misfiles (e : LineEffect lines l k f u f' u')
    (h : ¬ (l.carried ≠ [] ∧ k ∈ misfiles lines l)) :
    l.key = some k ∧ f' = u' ∨ l.key ≠ some k ∧ f' = f ∧ u' = u := by
  obtain ⟨rfl, rfl⟩ := e
  by_cases hkey : l.key = some k
  · refine Or.inl ⟨hkey, ?_⟩
    by_cases hcarried : l.carried = []
    · simp [hkey, hcarried]
    · -- the words that are carried over arrive at their own entry
      have hcontinued : continuedKey (keysOf (lines ++ [l])) = some k := by
        by_contra hne
        exact h ⟨hcarried, mem_misfiles.mpr ⟨hkey ▸ hne, Or.inl hkey⟩⟩
      simp [hkey, hcontinued]
  · refine Or.inr ⟨hkey, ?_, by simp [hkey]⟩
    by_cases hcontinued : continuedKey (keysOf (lines ++ [l])) = some k
    · have hcarried : l.carried = [] := by
        by_contra hne
        refine h ⟨hne, mem_misfiles.mpr ⟨?_, Or.inr hcontinued⟩⟩
        exact fun heq => hkey (heq.symm.trans hcontinued)
      simp [hkey, hcarried]
    · simp [hkey, hcontinued]

/-- A line that misfiles words under a name. -/
theorem of_misfiles (e : LineEffect lines l k f u f' u') (h : k ∈ misfiles lines l) :
    l.key = some k ∧ continuedKey (keysOf (lines ++ [l])) ≠ some k ∧
        u' = some (l.valueWords ++ l.carried) ∧ f' = some l.valueWords ∨
      l.key ≠ some k ∧ continuedKey (keysOf (lines ++ [l])) = some k ∧
        u' = u ∧ f' = f.map (· ++ l.carried) := by
  obtain ⟨rfl, rfl⟩ := e
  obtain ⟨hne, hkey | hcontinued⟩ := mem_misfiles.mp h
  · rw [hkey] at hne
    exact Or.inl ⟨hkey, hne, by simp [hkey], by simp [hkey, hne]⟩
  · have hkey : l.key ≠ some k := fun heq => hne (hcontinued.trans heq.symm)
    exact Or.inr ⟨hkey, hcontinued, by simp [hkey], by simp [hkey, hcontinued]⟩

end LineEffect

theorem entry_isSome_iff {h : HeaderLines} {k : String} :
    (h.entry k).isSome ↔ k ∈ h.headers.keys := by
  rw [HeaderLines.entry, Option.isSome_map, OrderedMap.mem_keys_iff]

/-- One more line keeps the two readings related. -/
theorem Simulated.append {lines : List FoldedLine} {l : FoldedLine} {f u f' u' : HeaderLines}
    (h : Simulated lines f u) (hkeys : f'.headers.keys = keysOf (lines ++ [l]))
    (hkeys' : u'.headers.keys = keysOf (lines ++ [l]))
    (hraw : f'.rawHeaders.map headerWords = u'.rawHeaders.map headerWords)
    (heffect : ∀ k, LineEffect lines l k (f.entry k) (u.entry k) (f'.entry k) (u'.entry k)) :
    Simulated (lines ++ [l]) f' u' := by
  refine ⟨hkeys, hkeys', hraw, fun k hk => ?_, fun k hk => ?_⟩
  · rw [misfiled_append_singleton, not_or] at hk
    rcases (heffect k).of_not_misfiles hk.1 with ⟨-, heq⟩ | ⟨hkey, hf, hu⟩
    · exact heq
    · rw [hf, hu]
      exact h.same k fun hm => hk.2 ⟨hm, hkey⟩
  · by_cases hmis : l.carried ≠ [] ∧ k ∈ misfiles lines l
    · obtain ⟨hcarried, hmem⟩ := hmis
      rcases (heffect k).of_misfiles hmem with ⟨-, hne, hu, hf⟩ | ⟨hkey, hcontinued, hu, hf⟩
      · exact Or.inr ⟨hne, _, _, hcarried, hu, hf⟩
      · -- the name was there before and its entry was the continued one then
        have hin : k ∈ keysOf lines := by
          have := mem_of_lastKey (lastKey_of_continuedKey hcontinued)
          rw [keysOf_append_singleton, mem_addKey] at this
          exact this.resolve_right hkey
        have hbefore : continuedKey (keysOf lines) = some k := by
          by_contra hne
          rw [keysOf_append_singleton] at hcontinued
          exact continuedKey_addKey_ne hin hne _ hcontinued
        rw [hu, hf]
        by_cases hm : Misfiled lines k
        · rcases h.differs k hm with hlonger | ⟨hne, -⟩
          · exact Or.inl (hlonger.append _)
          · exact absurd hbefore hne
        · obtain ⟨ws, hws⟩ := Option.isSome_iff_exists.mp
            (entry_isSome_iff.mpr (h.keys_unfolded ▸ hin : k ∈ u.headers.keys))
          rw [h.same k hm, hws]
          exact Or.inl ⟨ws, l.carried, hcarried, rfl, rfl⟩
    · obtain ⟨hm, hkey⟩ := ((misfiled_append_singleton lines l k).mp hk).resolve_left hmis
      rcases (heffect k).of_not_misfiles hmis with ⟨heq, -⟩ | ⟨-, hf, hu⟩
      · exact absurd heq hkey
      · rw [hf, hu]
        refine (h.differs k hm).imp id fun ⟨hne, hlonger⟩ => ⟨?_, hlonger⟩
        have hin : k ∈ keysOf lines := by
          rw [← h.keys_unfolded, ← entry_isSome_iff]
          obtain ⟨ws, more, -, heq, -⟩ := hlonger
          rw [heq]
          rfl
        rw [keysOf_append_singleton]
        exact continuedKey_addKey_ne hin hne _

theorem keysOf_append_of_not_mem (lines : List FoldedLine) {l : FoldedLine}
    (hcolon : ':' ∉ l.first) : keysOf (lines ++ [l]) = keysOf lines := by
  rw [keysOf_append_singleton, FoldedLine.key, indexOf_eq_none hcolon]
  rfl

/-- Reading the two texts line by line. -/
theorem simulated_read (lines : List FoldedLine) :
    Simulated lines ((lines.flatMap FoldedLine.physical).foldl HeaderLines.addLine ⟨∅, []⟩)
      ((lines.map FoldedLine.unfolded).foldl HeaderLines.addLine ⟨∅, []⟩) := by
  induction lines using List.reverseRecOn with
  | nil => exact ⟨rfl, rfl, rfl, fun _ _ => rfl, fun k hk => absurd hk (not_misfiled_nil k)⟩
  | append_singleton lines l ih =>
    rw [List.flatMap_append, List.foldl_append, List.map_append, List.foldl_append,
      List.flatMap_singleton, List.map_singleton, List.foldl_cons, List.foldl_nil]
    generalize (lines.flatMap FoldedLine.physical).foldl HeaderLines.addLine ⟨∅, []⟩ = f at ih ⊢
    generalize (lines.map FoldedLine.unfolded).foldl HeaderLines.addLine ⟨∅, []⟩ = u at ih ⊢
    by_cases hcolon : ':' ∈ l.first
    · have hproto : "__proto__" ∉ addKey f.headers.keys l.key := by
        rw [ih.keys_folded, ← keysOf_append_singleton]
        exact proto_not_mem_keysOf _
      obtain ⟨h', hadded, hcontinued⟩ := l.read_physical f hcolon hproto
      have hunfolded := l.added_unfolded u hcolon
      have hkeys : h'.headers.keys = keysOf (lines ++ [l]) := by
        rw [hadded.keys, ih.keys_folded, keysOf_append_singleton]
      refine ih.append (hcontinued.keys.trans hkeys) ?_ ?_ fun k => ⟨hunfolded.entry k, ?_⟩
      · rw [hunfolded.keys, ih.keys_unfolded, keysOf_append_singleton]
      · obtain ⟨line, hline, hwords⟩ := hadded.rawHeaders
        obtain ⟨line', hline', hwords'⟩ := hcontinued.rawHeaders _ _ hline
        obtain ⟨line'', hline'', hwords''⟩ := hunfolded.rawHeaders
        rw [hline', hline'', List.map_append, List.map_append, ih.rawHeaders, List.map_singleton,
          List.map_singleton, hwords', hwords, hwords'', List.append_nil]
      · rw [hcontinued.entry, hadded.entry, hkeys, List.append_nil]
    · -- a line without a colon is skipped, folded nowhere
      have hnil := l.folds_eq_nil hcolon
      have hfolded : l.physical.foldl HeaderLines.addLine f = f := by
        rw [FoldedLine.physical, hnil]
        exact HeaderLines.addLine_of_not_mem f hcolon l.trail.colon_not_mem
      have hunfolded : u.addLine l.unfolded = u := by
        rw [FoldedLine.unfolded, hnil]
        exact HeaderLines.addLine_of_not_mem u hcolon List.not_mem_nil
      have hkey : l.key = none := by
        rw [FoldedLine.key, indexOf_eq_none hcolon]
        rfl
      have hcarried : l.carried = [] := by
        rw [FoldedLine.carried, hnil]
        rfl
      rw [hfolded, hunfolded]
      have hkeys := keysOf_append_of_not_mem lines hcolon
      refine ih.append (hkeys ▸ ih.keys_folded) (hkeys ▸ ih.keys_unfolded) ih.rawHeaders fun k => ?_
      constructor
      · simp [hkey]
      · simp [hkey, hcarried]

/-! ### The two texts of a message -/

namespace FoldedMessage

theorem parse_folded (m : FoldedMessage) : ∃ f u, Simulated m.lines f u ∧
    parseSipMessage m.folded =
      { parseSipMessage (m.render []) with headers := f.headers, rawHeaders := f.rawHeaders } ∧
    parseSipMessage m.unfolded =
      { parseSipMessage (m.render []) with headers := u.headers, rawHeaders := u.rawHeaders } := by
  refine ⟨_, _, simulated_read m.lines, m.parse_render ?_, m.parse_render ?_⟩
  · intro line hline
    obtain ⟨l, -, hl⟩ := List.mem_flatMap.mp hline
    exact l.filledLine_physical line hl
  · intro line hline
    obtain ⟨l, -, rfl⟩ := List.mem_map.mp hline
    exact l.filledLine_unfolded

/-- Folding changes nothing but blanks exactly when every line that carries words over continues its
own entry, or else the entries concerned are all set again by later lines. -/
theorem parse_folded_iff (m : FoldedMessage) :
    SameUpToBlanks (parseSipMessage m.folded) (parseSipMessage m.unfolded) ↔
      ∀ before l after, m.lines = before ++ l :: after → l.carried ≠ [] →
        ∀ k ∈ misfiles before l, some k ∈ after.map FoldedLine.key := by
  obtain ⟨f, u, hsim, hfolded, hunfolded⟩ := m.parse_folded
  rw [hfolded, hunfolded]
  constructor
  · intro hsame before l after hlines hcarried k hk
    by_contra hafter
    -- What is misfiled and not set again differs.
    have hmis : Misfiled m.lines k := ⟨before, l, after, hlines, hcarried, hk, hafter⟩
    have hentry : f.entry k = u.entry k := hsame.values k
    rcases hsim.differs k hmis with hlonger | ⟨-, hlonger⟩
    · exact hlonger.ne hentry
    · exact hlonger.ne hentry.symm
  · intro hall
    refine ⟨rfl, rfl, rfl, rfl, hsim.keys_folded.trans hsim.keys_unfolded.symm, fun k => ?_,
      hsim.rawHeaders, rfl⟩
    apply hsim.same k
    rintro ⟨before, l, after, hlines, hcarried, hk, hafter⟩
    exact hafter (hall before l after hlines hcarried k hk)

/-- A second Via that is folded behind a From: its words end up in the From. -/
def secondVia : FoldedMessage where
  startLine := "INVITE sip:a SIP/2.0".toList
  lines :=
    [⟨"Via: v1".toList, ⟨[], by simp⟩, [], .of_not_mem (by decide), ⟨'V', rfl, by decide⟩, by decide⟩,
      ⟨"From: f".toList, ⟨[], by simp⟩, [], .of_not_mem (by decide), ⟨'F', rfl, by decide⟩, by decide⟩,
      ⟨"Via: v2".toList, ⟨[], by simp⟩,
        [⟨⟨[' '], by simp⟩, ⟨[' '], by simp⟩, "x".toList, ⟨[], by simp⟩, by simp, by simp,
          .of_not_mem (by decide)⟩],
        .of_not_mem (by decide), ⟨'V', rfl, by decide⟩, by decide⟩]
  body := []
  oneLine := .of_not_mem (by decide)

theorem secondVia_differs :
    ¬ ∀ m : FoldedMessage, SameUpToBlanks (parseSipMessage m.folded) (parseSipMessage m.unfolded) := by
  intro h
  have hvia := (h secondVia).values "from"
  revert hvia
  decide +kernel

end FoldedMessage

end VoiceServer
