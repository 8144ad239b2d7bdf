import VoiceAgentPlatform.Lib.Binary64
import VoiceAgentPlatform.Lib.PyVal
import VoiceAgentPlatform.Lib.Words

/-!
# The filter of hallucinated transcripts

Short final transcripts with a low confidence, or of filler words, are swallowed between speech recognition
and the aggregator. The arithmetic of floats is a parameter: what a text denotes, and the mean of a list.

* `hasDigit`, `isShort`, `extractConfidence`, `shouldDrop`, `processFrame`: as the source has them.
* `extractConfidence_isOk_iff`: on which results the confidence can be extracted.
* `neverEats_iff`: when no long speech and no other frame is lost.
-/

namespace TranscriptFilter

/-! ### Floats -/

/-- A float; zero has no sign. -/
inductive PyFloat where
  | finite (q : ℚ)
  | infinity (negative : Bool)
  | nan
  deriving DecidableEq

namespace PyFloat

/-- `x < y`. -/
def lt : PyFloat → PyFloat → Bool
  | finite p, finite q => p < q
  | finite _, infinity negative => !negative
  | infinity negative, finite _ => negative
  | infinity negative, infinity negative' => negative && !negative'
  | nan, _ => false
  | _, nan => false

/-- Nothing is less than the float. -/
def Least (x : PyFloat) : Prop := x = infinity true ∨ x = nan

instance (x : PyFloat) : Decidable x.Least := inferInstanceAs (Decidable (_ ∨ _))

theorem least_iff {x : PyFloat} : x.Least ↔ ∀ y, lt y x = false := by
  constructor
  · rintro (rfl | rfl) y
    · rcases y with _ | (_ | _) | _ <;> rfl
    · rcases y with _ | _ | _ <;> rfl
  · intro h
    rcases x with q | (_ | _) | _
    · exact absurd (h (infinity true)) (by simp [lt])
    · exact absurd (h (infinity true)) (by simp [lt])
    · exact Or.inl rfl
    · exact Or.inr rfl

end PyFloat

/-- The floats of the interpreter. -/
structure FloatOps where
  /-- The float that a text denotes. -/
  ofText : String → Option PyFloat
  /-- `sum(confs) / len(confs)`. -/
  mean : List PyFloat → PyFloat
  mean_singleton : ∀ c, mean [c] = c

/-- What the extraction may raise. -/
inductive Raised where
  | type
  | key
  | attribute
  | overflow
  deriving DecidableEq

/-- From here on a number rounds to none of the floats. -/
def floatBound : ℚ := 2 ^ 1024 - 2 ^ 970

/-- `float(c)`; none for what the handler catches. -/
def toFloat (ops : FloatOps) : PyVal → Except Raised (Option PyFloat)
  | .bool b => .ok (some (.finite b.toNat))
  | .int i =>
    if |(i : ℚ)| < floatBound then .ok (some (.finite (Binary64.nearest i))) else .error .overflow
  | .float q => .ok (some (.finite q))
  | .nan => .ok (some .nan)
  | .infinity negative => .ok (some (.infinity negative))
  | .decimal q =>
    .ok (some (if |q| < floatBound then .finite (Binary64.nearest q) else .infinity (q < 0)))
  | .str s => .ok (ops.ofText s)
  -- These raise a `TypeError`, which the handler catches.
  | .none => .ok none
  | .list _ => .ok none
  | .dict _ => .ok none

/-! ### The code -/

/-- `_DIGIT_RE`: ASCII and full-width digits. -/
def isDigit (c : Char) : Bool :=
  (0x30 ≤ c.toNat && c.toNat ≤ 0x39) || (0xFF10 ≤ c.toNat && c.toNat ≤ 0xFF19)

/-- `_CJK_RE`: Han, Hiragana and Katakana. -/
def isCjk (c : Char) : Bool :=
  let n := c.toNat
  (0x3040 ≤ n && n ≤ 0x30FF) || (0x3400 ≤ n && n ≤ 0x4DBF) || (0x4E00 ≤ n && n ≤ 0x9FFF) ||
    (0xFF66 ≤ n && n ≤ 0xFF9F)

/-- `_has_digit`. -/
def hasDigit (text : String) : Bool := text.toList.any isDigit

/-- `_is_short`. -/
def isShort (text : String) (maxCjkChars maxLatinWords : ℤ) : Bool :=
  let cjk := text.toList.filter isCjk
  if cjk ≠ [] then (cjk.length : ℤ) ≤ maxCjkChars
  else ((Words.words PyText.isSpace text.toList).length : ℤ) ≤ maxLatinWords

/-- `alts[0]` of a value that is not empty. -/
def firstOf : PyVal → Except Raised PyVal
  | .list (first :: _) => .ok first
  | .str s => .ok (.str (String.ofList (s.toList.take 1)))
  | .dict _ => .error .key
  | _ => .error .type

/-- `v.get(key)`. -/
def getOf (v : PyVal) (key : String) : Except Raised PyVal :=
  match v with
  | .dict d => .ok (PyDict.get d key)
  | _ => .error .attribute

/-- What `for it in items` goes through, of a value that is not empty; only dictionaries matter. -/
def iterate : PyVal → Except Raised (List PyVal)
  | .list xs => .ok xs
  | .str _ => .ok []
  | .dict _ => .ok []
  | _ => .error .type

/-- The confidences of the items. -/
def collect (ops : FloatOps) : List PyVal → Except Raised (List PyFloat)
  | [] => .ok []
  | .dict it :: items => do
    let c ← toFloat ops (PyDict.get it "Confidence")
    let confs ← collect ops items
    return c.toList ++ confs
  | _ :: items => collect ops items

/-- `_extract_confidence`. -/
def extractConfidence (ops : FloatOps) (result : PyVal) : Except Raised (Option PyFloat) := do
  let .dict result := result | return none
  let alts := PyDict.get result "Alternatives"
  if !alts.truthy then return none
  -- From here on a value of another type raises.
  let first ← firstOf alts
  let items ← getOf (first.orElse (.dict [])) "Items"
  let confs ← collect ops (← iterate (items.orElse (.list [])))
  if confs.isEmpty then return none
  return some (ops.mean confs)

/-- The settings of the filter. -/
structure Settings where
  minConfidence : PyFloat
  maxCjkChars : ℤ
  maxLatinWords : ℤ
  enabled : Bool
  denylist : List String

/-- Why a transcript is dropped or not. -/
inductive Reason where
  | hasDigit
  | long
  | lowConf
  | confOk
  | fillerDenylist
  | shortButNotFiller
  deriving DecidableEq

/-- `_should_drop`. -/
def shouldDrop (ops : FloatOps) (cfg : Settings) (text : String) (result : PyVal) :
    Except Raised (Bool × Reason) := do
  if hasDigit text then return (false, .hasDigit)
  if !isShort text cfg.maxCjkChars cfg.maxLatinWords then return (false, .long)
  match ← extractConfidence ops result with
  | some conf => if conf.lt cfg.minConfidence then return (true, .lowConf) else return (false, .confOk)
  | none =>
    if text ∈ cfg.denylist then return (true, .fillerDenylist) else return (false, .shortButNotFiller)

/-- The frames of a pipeline; `rest` is what the filter does not look at. -/
inductive Frame (α : Type) where
  | transcription (text : Option String) (result : PyVal) (rest : α)
  | interim (text : Option String) (rest : α)
  | other (rest : α)

inductive Direction where
  | downstream
  | upstream
  deriving DecidableEq

/-- What becomes of a frame. -/
inductive Outcome where
  | pushed
  | dropped
  | raised (error : Raised)
  deriving DecidableEq

variable {α : Type}

/-- `process_frame`. -/
def processFrame (ops : FloatOps) (cfg : Settings) : Frame α → Direction → Outcome
  | .transcription text result _, .downstream =>
    let text := PyText.strip (text.getD "")
    if !cfg.enabled || text = "" then .pushed
    else
      match shouldDrop ops cfg text result with
      | .error e => .raised e
      | .ok (drop, _) => if drop then .dropped else .pushed
  -- Frames of other kinds, and those that go upstream, are passed on.
  | _, _ => .pushed

/-- The frames that are pushed, of those that arrive. -/
def forwarded (ops : FloatOps) (cfg : Settings) (frames : List (Frame α × Direction)) :
    List (Frame α × Direction) :=
  frames.flatMap fun f =>
    match processFrame ops cfg f.1 f.2 with
    | .pushed => [f]
    | _ => []

/-! ### What is to hold -/

/-- The text is kept because it is not short. -/
def KeptAsLong (cfg : Settings) (text : String) : Prop :=
  PyText.strip text ≠ "" ∧ isShort (PyText.strip text) cfg.maxCjkChars cfg.maxLatinWords = false

/-- What the filter promises: of any texts and results, of `text` with anything, `more`, appended to it in a
frame with `rest`, and of the frames of a run. -/
structure NeverEats (ops : FloatOps) (cfg : Settings) (text more : String) (rest : α)
    (frames : List (Frame α × Direction)) : Prop where
  digit : ∀ text result, ∀ rest : α, hasDigit text →
    processFrame ops cfg (.transcription (some text) result rest) .downstream = .pushed
  long : KeptAsLong cfg text → ∀ result,
    processFrame ops cfg (.transcription (some (text ++ more)) result rest) .downstream ≠ .dropped
  dropped : ∀ text result, ∀ rest : α,
    processFrame ops cfg (.transcription (some text) result rest) .downstream = .dropped →
      (∃ conf, extractConfidence ops result = .ok (some conf) ∧ conf.lt cfg.minConfidence) ∨
        (extractConfidence ops result = .ok none ∧ PyText.strip text ∈ cfg.denylist)
  order : forwarded ops cfg frames = frames.filter fun f => processFrame ops cfg f.1 f.2 ≠ .dropped

/-- A CJK character is among those of the text. -/
def HasCjk (text : String) : Prop := ∃ c ∈ text.toList, isCjk c

/-- The measure of length is the same, or a good deal is appended. -/
def LengthKept (cfg : Settings) (text more : String) : Prop :=
  HasCjk text ∨ ¬ HasCjk more ∨ cfg.maxCjkChars < more.toList.countP isCjk ∨ hasDigit (text ++ more) ∨
    (cfg.minConfidence.Least ∧ PyText.strip (text ++ more) ∉ cfg.denylist)

/-- What the extraction can go through. -/
def ItemsReadable (items : PyVal) : Prop :=
  items.truthy → (∃ s, items = .str s) ∨ (∃ d, items = .dict d) ∨
    ∃ xs, items = .list xs ∧ ∀ it, .dict it ∈ xs → ∀ i : ℤ, PyDict.get it "Confidence" = .int i →
      |(i : ℚ)| < floatBound

/-- Alternatives, if there are any, are a list, the first of them is empty or a dictionary, and its items
can be gone through. -/
def Readable (result : PyVal) : Prop :=
  ∀ d, result = .dict d → (PyDict.get d "Alternatives").truthy →
    ∃ first rest, PyDict.get d "Alternatives" = .list (first :: rest) ∧
      (first.truthy → ∃ alt, first = .dict alt ∧ ItemsReadable (PyDict.get alt "Items"))

/-- The result of a text matters. -/
def Judged (cfg : Settings) (text : String) : Prop :=
  cfg.enabled ∧ PyText.strip text ≠ "" ∧ hasDigit text = false ∧
    isShort text cfg.maxCjkChars cfg.maxLatinWords

/-- A final transcript whose result matters has one that is readable. -/
def Judgeable (cfg : Settings) : Frame α × Direction → Prop
  | (.transcription text result _, .downstream) => Judged cfg (text.getD "") → Readable result
  | _ => True

/-! ### Confidences -/

theorem toFloat_isOk_iff {ops : FloatOps} {v : PyVal} :
    (∃ c, toFloat ops v = .ok c) ↔ ∀ i : ℤ, v = .int i → |(i : ℚ)| < floatBound := by
  constructor
  · rintro ⟨c, hc⟩ i rfl
    rw [toFloat] at hc
    by_contra hlarge
    rw [if_neg hlarge] at hc
    cases hc
  · intro h
    cases v with
    | int i => exact ⟨_, if_pos (h i rfl)⟩
    | _ => exact ⟨_, rfl⟩

theorem collect_isOk_iff {ops : FloatOps} {items : List PyVal} :
    (∃ confs, collect ops items = .ok confs) ↔
      ∀ it, .dict it ∈ items → ∀ i : ℤ, PyDict.get it "Confidence" = .int i → |(i : ℚ)| < floatBound := by
  induction items with
  | nil => exact ⟨fun _ it hit => absurd hit List.not_mem_nil, fun _ => ⟨[], rfl⟩⟩
  | cons item items ih =>
    by_cases hitem : ∃ it, item = .dict it
    · obtain ⟨it, rfl⟩ := hitem
      -- The collection goes on behind an item whose confidence is a number.
      have hsplit : (∃ confs, collect ops (.dict it :: items) = .ok confs) ↔
          (∃ c, toFloat ops (PyDict.get it "Confidence") = .ok c) ∧
            ∃ confs, collect ops items = .ok confs := by
        rw [collect]
        cases toFloat ops (PyDict.get it "Confidence") with
        | error e => simp [bind, Except.bind]
        | ok c =>
          cases collect ops items with
          | error e => simp [bind, Except.bind]
          | ok confs => simp [bind, Except.bind, pure, Except.pure]
      rw [hsplit, toFloat_isOk_iff, ih]
      constructor
      · rintro ⟨hhead, hrest⟩ it' hit'
        rcases List.mem_cons.mp hit' with heq | hmem
        · cases heq
          exact hhead
        · exact hrest it' hmem
      · intro h
        exact ⟨h it List.mem_cons_self, fun it' hit' => h it' (List.mem_cons_of_mem _ hit')⟩
    · -- An item that is not a dict is passed over.
      have hskip : collect ops (item :: items) = collect ops items := by
        cases item with
        | dict it => exact absurd ⟨it, rfl⟩ hitem
        | _ => rfl
      rw [hskip, ih]
      refine forall_congr' fun it => ?_
      rw [List.mem_cons, or_iff_right fun heq => hitem ⟨it, heq.symm⟩]

/-- What the extraction does with the items of the first alternative. -/
def confidenceOf (ops : FloatOps) (items : PyVal) : Except Raised (Option PyFloat) := do
  let confs ← collect ops (← iterate (items.orElse (.list [])))
  if confs.isEmpty then return none
  return some (ops.mean confs)

theorem confidenceOf_isOk_iff {ops : FloatOps} {items : PyVal} :
    (∃ conf, confidenceOf ops items = .ok conf) ↔ ItemsReadable items := by
  have hcollect : (∃ conf, confidenceOf ops items = .ok conf) ↔
      ∃ xs, iterate (items.orElse (.list [])) = .ok xs ∧ ∃ confs, collect ops xs = .ok confs := by
    rw [confidenceOf]
    cases iterate (items.orElse (.list [])) with
    | error e => simp [bind, Except.bind]
    | ok xs =>
      cases hconfs : collect ops xs with
      | error e => simp [bind, Except.bind, hconfs]
      | ok confs =>
        simp only [bind, Except.bind, hconfs, Except.ok.injEq]
        exact ⟨fun _ => ⟨xs, rfl, confs, hconfs⟩, fun _ => by split_ifs <;> exact ⟨_, rfl⟩⟩
  rw [hcollect, ItemsReadable, PyVal.orElse]
  -- Items that are falsy stand for no items.
  by_cases htruthy : items.truthy = true
  · rw [if_pos htruthy]
    simp only [htruthy, forall_const]
    cases items with
    | list xs => simp [iterate, collect_isOk_iff]
    | str s => exact ⟨fun _ => Or.inl ⟨s, rfl⟩, fun _ => ⟨[], rfl, [], rfl⟩⟩
    | dict d => exact ⟨fun _ => Or.inr (Or.inl ⟨d, rfl⟩), fun _ => ⟨[], rfl, [], rfl⟩⟩
    | _ => simp [iterate]
  · rw [if_neg htruthy]
    exact ⟨fun _ h => absurd h htruthy, fun _ => ⟨[], rfl, [], rfl⟩⟩

/-- The extraction of a dictionary, step by step. -/
theorem extractConfidence_dict {ops : FloatOps} (d : PyDict) :
    extractConfidence ops (.dict d) =
      if (PyDict.get d "Alternatives").truthy then do
        let first ← firstOf (PyDict.get d "Alternatives")
        let items ← getOf (first.orElse (.dict [])) "Items"
        confidenceOf ops items
      else .ok none := by
  rw [extractConfidence]
  cases (PyDict.get d "Alternatives").truthy <;> rfl

theorem isOk_bind_iff {ε β γ : Type} {x : Except ε β} {f : β → Except ε γ} :
    (∃ c, (x >>= f) = .ok c) ↔ ∃ b, x = .ok b ∧ ∃ c, f b = .ok c := by
  cases x with
  | error e => simp [bind, Except.bind]
  | ok b => simp [bind, Except.bind]

theorem firstOf_eq_ok {v first : PyVal} (hv : v.truthy = true) (h : firstOf v = .ok first) :
    (∃ rest, v = .list (first :: rest)) ∨ ∃ s, first = .str s ∧ s ≠ "" := by
  cases v with
  | list xs =>
    cases xs with
    | nil => cases h
    | cons x xs =>
      cases h
      exact Or.inl ⟨xs, rfl⟩
  | str s =>
    cases h
    -- The first of a text is its first character.
    refine Or.inr ⟨_, rfl, ?_⟩
    have hs : s ≠ "" := by simpa [PyVal.truthy] using hv
    intro hnil
    rw [String.ofList_eq_empty_iff, List.take_eq_nil_iff, String.toList_eq_nil_iff] at hnil
    exact hnil.elim (by decide) hs
  | _ => cases h

/-- The confidence can be extracted exactly from a readable result. -/
theorem extractConfidence_isOk_iff (ops : FloatOps) {result : PyVal} :
    (∃ conf, extractConfidence ops result = .ok conf) ↔ Readable result := by
  by_cases hdict : ∃ d, result = .dict d
  · obtain ⟨d, rfl⟩ := hdict
    rw [extractConfidence_dict, Readable]
    simp only [PyVal.dict.injEq, forall_eq']
    by_cases htruthy : (PyDict.get d "Alternatives").truthy = true
    · rw [if_pos htruthy, isOk_bind_iff]
      simp only [htruthy, forall_const, isOk_bind_iff, confidenceOf_isOk_iff]
      constructor
      · rintro ⟨first, hfirst, items, hitems, hreadable⟩
        -- The alternatives are a list, or a text whose first character is looked at.
        rcases firstOf_eq_ok htruthy hfirst with ⟨rest, hlist⟩ | ⟨s, rfl, hne⟩
        · refine ⟨first, rest, hlist, fun hfirst => ?_⟩
          rw [PyVal.orElse, if_pos hfirst] at hitems
          cases first with
          | dict alt =>
            cases hitems
            exact ⟨alt, rfl, hreadable⟩
          | _ => cases hitems
        · rw [PyVal.orElse, if_pos (by simpa [PyVal.truthy] using hne)] at hitems
          cases hitems
      · rintro ⟨first, rest, hlist, hfirst⟩
        refine ⟨first, by rw [hlist]; rfl, ?_⟩
        by_cases hempty : first.truthy = true
        · obtain ⟨alt, rfl, hreadable⟩ := hfirst hempty
          rw [PyVal.orElse, if_pos hempty]
          exact ⟨_, rfl, hreadable⟩
        · rw [PyVal.orElse, if_neg hempty]
          exact ⟨.none, rfl, fun h => by cases h⟩
    · rw [if_neg htruthy]
      exact ⟨fun _ h => absurd h htruthy, fun _ => ⟨none, rfl⟩⟩
  · have hnone : extractConfidence ops result = .ok none := by
      cases result with
      | dict d => exact absurd ⟨d, rfl⟩ hdict
      | _ => rfl
    exact ⟨fun _ d heq => absurd ⟨d, heq⟩ hdict, fun _ => ⟨none, hnone⟩⟩

/-- A result with one confidence. -/
def resultOf (conf : PyFloat) : PyVal :=
  let value :=
    match conf with
    | .finite q => .float q
    | .infinity negative => .infinity negative
    | .nan => .nan
  .dict [("Alternatives", .list [.dict [("Items", .list [.dict [("Confidence", value)]])]])]

theorem extractConfidence_resultOf (ops : FloatOps) (conf : PyFloat) :
    extractConfidence ops (resultOf conf) = .ok (some conf) := by
  have hmean : extractConfidence ops (resultOf conf) = .ok (some (ops.mean [conf])) := by
    cases conf <;> rfl
  rw [hmean, ops.mean_singleton]

/-! ### Lengths -/

theorem countP_strip {q : Char → Bool} (hq : ∀ c, q c = true → PyText.isSpace c = false) (text : String) :
    (PyText.strip text).toList.countP q = text.toList.countP q := by
  obtain ⟨front, back, hfront, hback, heq⟩ := Trimming.exists_trimBoth PyText.isSpace text.toList
  have hblank : ∀ s : List Char, (∀ c ∈ s, PyText.isSpace c = true) → s.countP q = 0 := by
    refine fun s hs => List.countP_eq_zero.mpr fun c hc hqc => ?_
    have hspace := hs c hc
    rw [hq c hqc] at hspace
    cases hspace
  have hsum := congrArg (List.countP q) heq
  rw [List.countP_append, List.countP_append, hblank front hfront, hblank back hback] at hsum
  rw [PyText.strip_eq, String.toList_ofList, hsum, Nat.zero_add, Nat.add_zero]

theorem isSpace_of_isDigit {c : Char} (h : isDigit c = true) : PyText.isSpace c = false := by
  simp [isDigit, PyText.isSpace] at h ⊢
  omega

theorem isSpace_of_isCjk {c : Char} (h : isCjk c = true) : PyText.isSpace c = false := by
  simp [isCjk, PyText.isSpace] at h ⊢
  omega

theorem hasDigit_eq_countP (text : String) : hasDigit text = decide (0 < text.toList.countP isDigit) := by
  rw [hasDigit, Bool.eq_iff_iff, List.any_eq_true, decide_eq_true_iff, List.countP_pos_iff]

/-- Whether a text has digits, and whether it is short, is not changed by stripping it. -/
theorem hasDigit_strip (text : String) : hasDigit (PyText.strip text) = hasDigit text := by
  rw [hasDigit_eq_countP, hasDigit_eq_countP, countP_strip fun _ => isSpace_of_isDigit]

theorem isShort_iff {text : String} {maxCjkChars maxLatinWords : ℤ} :
    isShort text maxCjkChars maxLatinWords = true ↔
      if 0 < text.toList.countP isCjk then (text.toList.countP isCjk : ℤ) ≤ maxCjkChars
      else ((Words.words PyText.isSpace text.toList).length : ℤ) ≤ maxLatinWords := by
  have hcjk : text.toList.filter isCjk ≠ [] ↔ 0 < text.toList.countP isCjk := by
    rw [List.countP_eq_length_filter, List.length_pos_iff]
  simp only [isShort, hcjk, ← List.countP_eq_length_filter]
  by_cases h : 0 < text.toList.countP isCjk
  · rw [if_pos h, if_pos h, decide_eq_true_iff]
  · rw [if_neg h, if_neg h, decide_eq_true_iff]

theorem isShort_strip (text : String) (maxCjkChars maxLatinWords : ℤ) :
    isShort (PyText.strip text) maxCjkChars maxLatinWords = isShort text maxCjkChars maxLatinWords := by
  rw [Bool.eq_iff_iff, isShort_iff, isShort_iff, countP_strip fun _ => isSpace_of_isCjk, PyText.strip_eq,
    String.toList_ofList, Words.length_words_trimBoth]

theorem hasCjk_iff {text : String} : HasCjk text ↔ 0 < text.toList.countP isCjk := List.countP_pos_iff.symm

/-- A long text with more appended is long, unless the measure changes and little is appended. -/
theorem isShort_append_iff {text : String} {maxCjkChars maxLatinWords : ℤ}
    (h : isShort text maxCjkChars maxLatinWords = false) (more : String) :
    isShort (text ++ more) maxCjkChars maxLatinWords = false ↔
      HasCjk text ∨ ¬ HasCjk more ∨ maxCjkChars < more.toList.countP isCjk := by
  have hwords := Words.length_words_le_append (p := PyText.isSpace) text.toList more.toList
  rw [← Bool.not_eq_true, isShort_iff] at h ⊢
  rw [hasCjk_iff, hasCjk_iff, String.toList_append, List.countP_append, Nat.cast_add]
  split_ifs at h ⊢ <;> omega

/-! ### Frames -/

theorem processFrame_of_not_judged {ops : FloatOps} {cfg : Settings} (text : Option String) {result : PyVal}
    {rest : α} (h : ¬ Judged cfg (text.getD "")) :
    processFrame ops cfg (.transcription text result rest) .downstream = .pushed := by
  rw [Judged, ← hasDigit_strip, ← isShort_strip] at h
  rw [processFrame, shouldDrop]
  cases henabled : cfg.enabled with
  | false => rfl
  | true =>
    by_cases hempty : PyText.strip (text.getD "") = ""
    · simp [hempty]
    · cases hdigit : hasDigit (PyText.strip (text.getD "")) with
      | true => simp [hempty, pure, Except.pure]
      | false =>
        have hlong : isShort (PyText.strip (text.getD "")) cfg.maxCjkChars cfg.maxLatinWords = false :=
          Bool.eq_false_iff.mpr fun hshort => h ⟨henabled, hempty, hdigit, hshort⟩
        simp [hempty, hlong, pure, Except.pure]

/-- A judged text is dropped for a low confidence, or without one for being a filler. -/
theorem processFrame_of_judged {ops : FloatOps} {cfg : Settings} (text : Option String) {result : PyVal}
    {rest : α} (h : Judged cfg (text.getD "")) :
    processFrame ops cfg (.transcription text result rest) .downstream =
      match extractConfidence ops result with
      | .error e => .raised e
      | .ok (some conf) => if conf.lt cfg.minConfidence then .dropped else .pushed
      | .ok none => if PyText.strip (text.getD "") ∈ cfg.denylist then .dropped else .pushed := by
  obtain ⟨henabled, hempty, hdigit, hshort⟩ := h
  -- The filter judges the text without the blanks around it.
  rw [← hasDigit_strip] at hdigit
  rw [← isShort_strip] at hshort
  rw [processFrame, shouldDrop, henabled, hdigit, hshort]
  rcases hconf : extractConfidence ops result with e | conf | conf
  · simp [hempty, bind, Except.bind]
  · by_cases hmem : PyText.strip (text.getD "") ∈ cfg.denylist
    · simp [hempty, hmem, bind, Except.bind, pure, Except.pure]
    · simp [hempty, hmem, bind, Except.bind, pure, Except.pure]
  · cases hlt : conf.lt cfg.minConfidence with
    | false => simp [hempty, hlt, bind, Except.bind, pure, Except.pure]
    | true => simp [hempty, hlt, bind, Except.bind, pure, Except.pure]

/-- When a transcript is dropped. -/
theorem processFrame_eq_dropped_iff {ops : FloatOps} {cfg : Settings} {text : String} {result : PyVal}
    {rest : α} :
    processFrame ops cfg (.transcription (some text) result rest) .downstream = .dropped ↔
      Judged cfg text ∧
        ((∃ conf, extractConfidence ops result = .ok (some conf) ∧ conf.lt cfg.minConfidence) ∨
          (extractConfidence ops result = .ok none ∧ PyText.strip text ∈ cfg.denylist)) := by
  by_cases hjudged : Judged cfg text
  · rw [processFrame_of_judged (some text) hjudged, and_iff_right hjudged, Option.getD_some]
    generalize extractConfidence ops result = extracted
    rcases extracted with e | conf | conf
    · simp
    · simp
    · simp
  · rw [processFrame_of_not_judged (some text) hjudged]
    simp [hjudged]

/-- No frame raises exactly if its result can be read where it matters. -/
theorem judgeable_iff (ops : FloatOps) {cfg : Settings} {f : Frame α × Direction} :
    Judgeable cfg f ↔ ∀ e, processFrame ops cfg f.1 f.2 ≠ .raised e := by
  obtain ⟨frame, direction⟩ := f
  cases frame with
  | transcription text result rest =>
    cases direction with
    | downstream =>
      rw [Judgeable, ← extractConfidence_isOk_iff ops]
      -- Only a text that is judged needs its confidence.
      by_cases hjudged : Judged cfg (text.getD "")
      · rw [processFrame_of_judged _ hjudged]
        generalize extractConfidence ops result = extracted
        rcases extracted with e | conf | conf
        · simp [hjudged]
        · simp only [hjudged, forall_const]
          exact ⟨fun _ e => by split_ifs <;> simp, fun _ => ⟨_, rfl⟩⟩
        · simp only [hjudged, forall_const]
          exact ⟨fun _ e => by split_ifs <;> simp, fun _ => ⟨_, rfl⟩⟩
      · rw [processFrame_of_not_judged _ hjudged]
        simp [hjudged]
    | upstream => simp [Judgeable, processFrame]
  | interim text rest => simp [Judgeable, processFrame]
  | other rest => simp [Judgeable, processFrame]

theorem forwarded_eq_filter (ops : FloatOps) (cfg : Settings) (frames : List (Frame α × Direction)) :
    forwarded ops cfg frames = frames.filter fun f => processFrame ops cfg f.1 f.2 = .pushed := by
  induction frames with
  | nil => rfl
  | cons f frames ih =>
    rw [forwarded, List.flatMap_cons, ← forwarded, ih]
    cases hf : processFrame ops cfg f.1 f.2 with
    | pushed => rw [List.filter_cons_of_pos (by simp [hf])]; rfl
    | dropped => rw [List.filter_cons_of_neg (by simp [hf])]; rfl
    | raised e => rw [List.filter_cons_of_neg (by simp [hf])]; rfl

/-- The frames that are not dropped are pushed exactly if none raises. -/
theorem forwarded_eq_iff {ops : FloatOps} {cfg : Settings} {frames : List (Frame α × Direction)} :
    (forwarded ops cfg frames = frames.filter fun f => processFrame ops cfg f.1 f.2 ≠ .dropped) ↔
      ∀ f ∈ frames, Judgeable cfg f := by
  have houtcome : ∀ outcome : Outcome,
      (∀ e, outcome ≠ .raised e) ↔ (outcome = .pushed ↔ outcome ≠ .dropped) := by
    rintro (_ | _ | e) <;> simp
  simp only [forwarded_eq_filter, judgeable_iff ops, houtcome]
  constructor
  · intro heq f hf
    have hmem := congrArg (f ∈ ·) heq
    simpa [hf] using hmem
  · intro h
    refine List.filter_congr fun f hf => ?_
    rw [decide_eq_decide]
    exact h f hf

theorem strip_ne_empty_iff {text : String} :
    PyText.strip text ≠ "" ↔ ∃ c ∈ text.toList, PyText.isSpace c = false := by
  rw [PyText.strip_eq, ne_eq, String.ofList_eq_empty_iff]
  constructor
  · intro hne
    obtain ⟨front, back, hfront, hback, heq⟩ := Trimming.exists_trimBoth PyText.isSpace text.toList
    obtain ⟨c, rest, htrim⟩ := List.exists_cons_of_ne_nil hne
    refine ⟨c, by rw [heq, htrim]; simp, ?_⟩
    exact Trimming.not_of_head?_trimBoth (s := text.toList) (by rw [htrim]; rfl)
  · rintro ⟨c, hc, hspace⟩
    exact Trimming.trimBoth_ne_nil hspace hc

/-- Appending does not empty a text. -/
theorem strip_append_ne_empty {text : String} (h : PyText.strip text ≠ "") (more : String) :
    PyText.strip (text ++ more) ≠ "" := by
  rw [strip_ne_empty_iff] at h ⊢
  obtain ⟨c, hc, hspace⟩ := h
  exact ⟨c, by rw [String.toList_append]; exact List.mem_append_left _ hc, hspace⟩

/-- A long text with more appended is never dropped exactly if its length is kept. -/
theorem never_dropped_iff {ops : FloatOps} {cfg : Settings} {text more : String} {rest : α}
    (hlong : KeptAsLong cfg text) :
    (∀ result,
      processFrame ops cfg (.transcription (some (text ++ more)) result rest) .downstream ≠ .dropped) ↔
      (cfg.enabled → LengthKept cfg text more) := by
  obtain ⟨hempty, hlong⟩ := hlong
  rw [isShort_strip] at hlong
  have happend := isShort_append_iff hlong more
  simp only [ne_eq, processFrame_eq_dropped_iff, Judged, strip_append_ne_empty hempty, not_false_eq_true,
    true_and]
  constructor
  · intro hnever henabled
    by_contra hkept
    simp only [LengthKept, not_or] at hkept
    obtain ⟨hcjk, hmore, hmany, hdigit, hleast⟩ := hkept
    have hshort : isShort (text ++ more) cfg.maxCjkChars cfg.maxLatinWords = true := by
      refine Bool.not_eq_false _ |>.mp fun hfalse => ?_
      rcases happend.mp hfalse with hcjk' | hmore' | hmany'
      · exact hcjk hcjk'
      · exact hmore hmore'
      · exact hmany hmany'
    have hjudged := And.intro henabled (And.intro (Bool.eq_false_iff.mpr hdigit) hshort)
    by_cases hmin : cfg.minConfidence.Least
    · -- Without a confidence the text is dropped as a filler.
      refine hnever .none ⟨hjudged, Or.inr ⟨rfl, ?_⟩⟩
      by_contra hmem
      exact hleast ⟨hmin, hmem⟩
    · rw [PyFloat.least_iff, not_forall] at hmin
      obtain ⟨conf, hlt⟩ := hmin
      exact hnever (resultOf conf)
        ⟨hjudged, Or.inl ⟨conf, extractConfidence_resultOf ops conf, Bool.not_eq_false _ |>.mp hlt⟩⟩
  · rintro hkept result ⟨⟨henabled, hdigit, hshort⟩, hdropped⟩
    rcases hkept henabled with hcjk | hmore | hmany | hdigit' | ⟨hleast, hmem⟩
    · rw [happend.mpr (Or.inl hcjk)] at hshort
      cases hshort
    · rw [happend.mpr (Or.inr (Or.inl hmore))] at hshort
      cases hshort
    · rw [happend.mpr (Or.inr (Or.inr hmany))] at hshort
      cases hshort
    · rw [hdigit] at hdigit'
      cases hdigit'
    · rcases hdropped with ⟨conf, -, hlt⟩ | ⟨-, hmem'⟩
      · rw [PyFloat.least_iff.mp hleast conf] at hlt
        cases hlt
      · exact hmem hmem'

/-- The filter keeps its promises exactly if appending to a long text keeps its measure of length or is a
good deal, and the results of short transcripts are readable. -/
theorem neverEats_iff (ops : FloatOps) (cfg : Settings) (text more : String) (rest : α)
    (frames : List (Frame α × Direction)) :
    NeverEats ops cfg text more rest frames ↔
      (cfg.enabled → KeptAsLong cfg text → LengthKept cfg text more) ∧ ∀ f ∈ frames, Judgeable cfg f := by
  constructor
  · intro h
    exact ⟨fun henabled hlong => (never_dropped_iff hlong).mp (h.long hlong) henabled,
      forwarded_eq_iff.mp h.order⟩
  · rintro ⟨hlength, hframes⟩
    constructor
    · intro text' result rest hdigit
      -- A text with a digit is not judged at all.
      refine processFrame_of_not_judged _ fun hjudged => ?_
      rw [Option.getD_some] at hjudged
      exact absurd hdigit (by simp [hjudged.2.2.1])
    · exact fun hlong => (never_dropped_iff hlong).mpr fun henabled => hlength henabled hlong
    · exact fun text' result rest hdropped => (processFrame_eq_dropped_iff.mp hdropped).2
    · exact forwarded_eq_iff.mpr hframes

/-- Floats of results with one confidence. -/
def singleConfidence : FloatOps where
  ofText _ := none
  mean
    | [c] => c
    | _ => .nan
  mean_singleton _ := rfl

/-- `DEFAULT_FILLER_DENYLIST`. -/
def defaultFillerDenylist : List String :=
  ["うん", "うーん", "ううん", "ん", "んー", "は", "はぁ", "はあ", "あ", "ああ", "あっ", "あの", "あのー", "え", "えっ", "えー",
    "えーと", "ええと", "そう", "そうそう", "お", "おお", "へえ", "ふん", "まあ", "なるほど"]

/-- The settings of an empty environment, but enabled. -/
def defaults : Settings where
  minConfidence := .finite (1 / 2)
  maxCjkChars := 4
  maxLatinWords := 1
  enabled := true
  denylist := defaultFillerDenylist

/-- With one CJK character behind two words, the words do not count. -/
theorem mixedText_dropped : ¬ NeverEats singleConfidence defaults "hello there" "は" () [] := by
  intro h
  have hlong : KeptAsLong defaults "hello there" := by unfold KeptAsLong; decide
  have hjudged : Judged defaults ("hello there" ++ "は") := by unfold Judged; decide
  refine h.long hlong (resultOf (.finite (1 / 5))) (processFrame_eq_dropped_iff.mpr ⟨hjudged, Or.inl ?_⟩)
  exact ⟨_, extractConfidence_resultOf _ _, by decide +kernel⟩

end TranscriptFilter
