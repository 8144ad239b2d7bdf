import VoiceAgentPlatform.Lib.JsText
import VoiceAgentPlatform.Lib.JsonText

/-!
# The structured summary of a call

What the model answers is parsed into the canonical summary. `str` of a value is a parameter, as is the
nesting at which the parser overflows.

* `unfence`, `coerceSummaryStruct`: as the source has them.
* `Canonical`: a summary is returned, fences do not matter, and the text of a summary gives it again.
* `canonical_iff`: the answers of which this holds.
-/

namespace History

/-- `str` of a value. -/
structure PyStr where
  str : PyVal → String
  str_str : ∀ s, str (.str s) = s
  /-- Only an empty string has no text. -/
  str_ne_empty : ∀ v, v.truthy = true → str v ≠ ""

/-! ### The code -/

/-- Three backticks. -/
def fence : List Char := ['`', '`', '`']

/-- `s.lower().startswith("json")`. -/
def startsWithJson (s : List Char) : Bool := (s.take 4).map Char.toLower = "json".toList

/-- The answer without white space and fences around it. -/
def unfence (raw : List Char) : List Char :=
  let s := Trimming.trimBoth PyText.isSpace raw
  if fence.isPrefixOf s then
    let s := s.dropWhile (· = '`')
    let s := if startsWithJson s then s.drop 4 else s
    let s := Trimming.trimBoth PyText.isSpace s
    if fence.isSuffixOf s then Trimming.trimBoth PyText.isSpace (s.take (s.length - 3)) else s
  else s

/-- The summary. -/
structure SummaryStruct where
  intent : String
  keyQuestions : List String
  actionItems : List String
  sentiment : String
  deriving DecidableEq

/-- What is raised. -/
inductive NotIterable where
  | type
  deriving DecidableEq

/-- `[str(x) for x in (value or []) if x]`. -/
def listOf (py : PyStr) (value : PyVal) : Except NotIterable (List String) :=
  let texts (xs : List PyVal) := (xs.filter PyVal.truthy).map py.str
  match value.orElse (.list []) with
  | .list xs => .ok (texts xs)
  | .str s => .ok (texts (s.toList.map fun c => .str (String.singleton c)))
  | .dict d => .ok (texts (d.map fun e => .str e.1))
  | _ => .error .type

/-- `s[:n]`. -/
def truncated (n : ℕ) (s : String) : String := String.ofList (s.toList.take n)

/-- The summary of an object. -/
def ofObject (py : PyStr) (data : PyDict) : Except NotIterable SummaryStruct := do
  let intent := truncated 1000 (py.str ((PyDict.get data "intent").orElse (.str "")))
  let keyQuestions ← listOf py (PyDict.get data "key_questions")
  let actionItems ← listOf py (PyDict.get data "action_items")
  let sentiment := py.str ((PyDict.get data "sentiment").orElse (.str "neutral"))
  return { intent, keyQuestions, actionItems, sentiment }

/-- `_coerce_summary_struct`. Whatever the parser raises is caught. -/
def coerceSummaryStruct [Json.Python] (py : PyStr) (rawText : String) :
    Except NotIterable SummaryStruct :=
  match Json.loads (String.ofList (unfence rawText.toList)) with
  | .ok (.dict data) => ofObject py data
  | _ => .ok
    { intent := truncated 500 rawText, keyQuestions := [], actionItems := [], sentiment := "neutral" }

/-! ### What is to hold -/

/-- The members of a summary as JSON. -/
def SummaryStruct.members (r : SummaryStruct) : List Json.Member :=
  [⟨"intent", Json.dumpString r.intent, .str r.intent⟩,
    ⟨"key_questions", Json.dumpStrings r.keyQuestions, .list (r.keyQuestions.map .str)⟩,
    ⟨"action_items", Json.dumpStrings r.actionItems, .list (r.actionItems.map .str)⟩,
    ⟨"sentiment", Json.dumpString r.sentiment, .str r.sentiment⟩]

/-- `json.dumps` of a summary. -/
def SummaryStruct.dumps (r : SummaryStruct) : String :=
  String.ofList ('{' :: (Json.membersText r.members ++ ['}']))

def Blank (s : List Char) : Prop := ∀ c ∈ s, PyText.isSpace c = true

/-- Lines of fences around a text: the tag is empty or `json`, in any case, and all around is blank. -/
structure Fence where
  before : List Char
  tag : List Char
  open_ : List Char
  close : List Char
  after : List Char
  blank_before : Blank before
  tag_eq : tag = [] ∨ tag.map Char.toLower = "json".toList
  blank_open : Blank open_
  blank_close : Blank close
  blank_after : Blank after

/-- The text between the fences. -/
def Fence.around (f : Fence) (o : List Char) : List Char :=
  f.before ++ (fence ++ (f.tag ++ (f.open_ ++ (o ++ (f.close ++ fence))))) ++ f.after

/-- The text, up to white space around it, is that of an object, whatever its size. -/
def IsObjectText [Json.Python] (o : String) : Prop :=
  ∃ data, Json.value? Json.Python.standIn (PyText.strip o) = some (.dict data)

/-- No limit of the parser is hit by the text of an object. -/
def WithinLimits [Json.Python] (o : String) : Prop :=
  ∀ data, Json.value? Json.Python.standIn (PyText.strip o) = some (.dict data) →
    Json.loads (PyText.strip o) = .ok (.dict data)

/-- No text in the lists is empty. -/
def SummaryStruct.Proper (r : SummaryStruct) : Prop :=
  (∀ q ∈ r.keyQuestions, q ≠ "") ∧ ∀ a ∈ r.actionItems, a ≠ ""

/-- The answer gives a summary; if it is that of an object, fences do not change it; and the text of the
summary gives the summary again. -/
structure Canonical [Json.Python] (py : PyStr) (rawText : String) : Prop where
  total : ∃ r, coerceSummaryStruct py rawText = .ok r ∧ r.Proper
  fenced : IsObjectText rawText → ∀ f : Fence,
    coerceSummaryStruct py (String.ofList (f.around rawText.toList)) = coerceSummaryStruct py rawText
  again : ∀ r, coerceSummaryStruct py rawText = .ok r → coerceSummaryStruct py r.dumps = .ok r

/-- What can be gone through, or is not looked at. -/
def Listable (value : PyVal) : Prop :=
  value.truthy = true → (∃ xs, value = .list xs) ∨ (∃ s, value = .str s) ∨ ∃ d, value = .dict d

/-! ### Fences -/

theorem Blank.append {s t : List Char} (hs : Blank s) (ht : Blank t) : Blank (s ++ t) := fun c hc =>
  (List.mem_append.mp hc).elim (hs c) (ht c)

theorem blank_nil : Blank [] := fun _ h => absurd h List.not_mem_nil

/-- White space and an opening brace are not the beginning of a tag. -/
theorem startsWithJson_eq_false {s : List Char}
    (h : ∀ c, s.head? = some c → PyText.isSpace c = true ∨ c = '{') : startsWithJson s = false := by
  rw [startsWithJson, decide_eq_false_iff_not]
  intro heq
  cases s with
  | nil => simp at heq
  | cons c s =>
    -- The first character would have to be a letter.
    have hj : c.toLower = 'j' := by
      rw [List.take_succ_cons, List.map_cons] at heq
      exact (List.cons.inj heq).1
    have hcode : 'j'.toNat = 106 := rfl
    rcases h c rfl with hspace | rfl
    · rcases JsText.toLower_cases c with hsame | ⟨hlow, hhigh, -⟩
      · rw [← hsame, hj] at hspace
        exact absurd hspace (by decide)
      · simp [PyText.isSpace] at hspace
        omega
    · exact absurd hj (by decide)

theorem getLast?_append_fence (s : List Char) : (s ++ fence).getLast? = some '`' := by
  rw [List.getLast?_append]
  rfl

/-- The tag is taken off. -/
theorem untagged {tag tail : List Char} (htag : tag = [] ∨ tag.map Char.toLower = "json".toList)
    (htail : ∀ c, tail.head? = some c → PyText.isSpace c = true ∨ c = '{') :
    (if startsWithJson (tag ++ tail) then (tag ++ tail).drop 4 else tag ++ tail) = tail := by
  rcases htag with rfl | htag
  · rw [List.nil_append, startsWithJson_eq_false htail]
    rfl
  · have hlength : tag.length = 4 := by
      have := congrArg List.length htag
      rwa [List.length_map] at this
    have hstarts : startsWithJson (tag ++ tail) = true := by
      rw [startsWithJson, List.take_left' hlength, decide_eq_true htag]
    rw [hstarts, List.drop_left' hlength]
    rfl

/-- What is between fences and white space. -/
theorem unfence_fenced {before tag gap body close after : List Char} (hbefore : Blank before)
    (htag : tag = [] ∨ tag.map Char.toLower = "json".toList) (hgap : Blank gap)
    (hhead : body.head? = some '{') (hlast : ∀ c, body.getLast? = some c → PyText.isSpace c = false)
    (hclose : Blank close) (hafter : Blank after) :
    unfence (before ++ (fence ++ (tag ++ (gap ++ (body ++ (close ++ fence)))) ++ after)) = body := by
  obtain ⟨rest, rfl⟩ := List.head?_eq_some_iff.mp hhead
  have htick : PyText.isSpace '`' = false := by decide
  have hbrace : ∀ {c : Char} {s : List Char}, ('{' :: s).head? = some c → PyText.isSpace c = false := by
    intro c s hc
    cases hc
    decide
  have htail : ∀ c, (gap ++ ('{' :: rest ++ (close ++ fence))).head? = some c →
      PyText.isSpace c = true ∨ c = '{' := by
    intro c hc
    cases gap with
    | nil => exact Or.inr (Option.some.inj hc).symm
    | cons d gap =>
      obtain rfl : d = c := Option.some.inj hc
      exact Or.inl (hgap d List.mem_cons_self)
  -- The white space around the fences.
  have houter : Trimming.trimBoth PyText.isSpace
      (before ++ (fence ++ (tag ++ (gap ++ ('{' :: rest ++ (close ++ fence)))) ++ after)) =
      fence ++ (tag ++ (gap ++ ('{' :: rest ++ (close ++ fence)))) := by
    refine Trimming.trimBoth_padded before after hbefore hafter (fun c hc => ?_) (fun c hc => ?_)
      (by simp [fence])
    · cases hc
      exact htick
    · have hassoc : fence ++ (tag ++ (gap ++ ('{' :: rest ++ (close ++ fence)))) =
          (fence ++ (tag ++ (gap ++ ('{' :: rest ++ close)))) ++ fence := by simp
      rw [hassoc, getLast?_append_fence] at hc
      cases hc
      exact htick
  -- The opening fence.
  have hopen : (fence ++ (tag ++ (gap ++ ('{' :: rest ++ (close ++ fence))))).dropWhile (· = '`') =
      tag ++ (gap ++ ('{' :: rest ++ (close ++ fence))) := by
    rw [List.dropWhile_append_of_pos (by decide)]
    refine Trimming.dropWhile_eq_self fun c hc => decide_eq_false fun heq => ?_
    subst heq
    rcases htag with rfl | htag
    · rcases htail _ hc with hspace | hchar
      · rw [htick] at hspace
        cases hspace
      · exact absurd hchar (by decide)
    · cases tag with
      | nil => simp at htag
      | cons c tag =>
        obtain rfl : c = '`' := Option.some.inj hc
        exact absurd (List.cons.inj htag).1 (by decide)
  -- The white space behind the tag.
  have hinner : Trimming.trimBoth PyText.isSpace (gap ++ ('{' :: rest ++ (close ++ fence))) =
      '{' :: rest ++ (close ++ fence) := by
    have hpadded := Trimming.trimBoth_padded gap [] hgap (fun _ h => absurd h List.not_mem_nil)
      (s := '{' :: rest ++ (close ++ fence)) (fun c hc => hbrace hc) (fun c hc => ?_) (by simp)
    · rwa [List.append_nil] at hpadded
    · rw [← List.append_assoc, getLast?_append_fence] at hc
      cases hc
      exact htick
  -- The closing fence.
  have hsuffix : fence.isSuffixOf ('{' :: rest ++ (close ++ fence)) = true := by
    rw [List.isSuffixOf_iff_suffix, ← List.append_assoc]
    exact List.suffix_append _ _
  have hcut : ('{' :: rest ++ (close ++ fence)).take (('{' :: rest ++ (close ++ fence)).length - 3) =
      '{' :: rest ++ close := by
    rw [← List.append_assoc]
    exact List.take_left' (by simp [fence]; omega)
  have hbody : Trimming.trimBoth PyText.isSpace ('{' :: rest ++ close) = '{' :: rest :=
    Trimming.trimBoth_padded [] close (fun _ h => absurd h List.not_mem_nil) hclose
      (fun c hc => hbrace hc) hlast (by simp)
  rw [unfence]
  simp only [houter]
  rw [if_pos (by rfl), hopen, untagged htag htail, hinner, if_pos hsuffix, hcut, hbody]

/-- Between the fences is the text without the white space around it. -/
theorem unfence_around (f : Fence) {o : List Char}
    (ho : (Trimming.trimBoth PyText.isSpace o).head? = some '{') :
    unfence (f.around o) = Trimming.trimBoth PyText.isSpace o := by
  obtain ⟨lead, trail, hlead, htrail, heq⟩ := Trimming.exists_trimBoth PyText.isSpace o
  have hlast := fun c => Trimming.not_of_getLast?_trimBoth (p := PyText.isSpace) (s := o) (a := c)
  have haround : f.around o = f.before ++ (fence ++ (f.tag ++ ((f.open_ ++ lead) ++
      (Trimming.trimBoth PyText.isSpace o ++ ((trail ++ f.close) ++ fence)))) ++ f.after) := by
    rw [Fence.around]
    conv => lhs; rw [heq]
    simp
  rw [haround]
  exact unfence_fenced f.blank_before f.tag_eq (f.blank_open.append hlead) ho hlast
    (Blank.append htrail f.blank_close) f.blank_after

/-- A text that begins with a brace has no fences. -/
theorem unfence_of_brace {o : List Char} (ho : (Trimming.trimBoth PyText.isSpace o).head? = some '{') :
    unfence o = Trimming.trimBoth PyText.isSpace o := by
  obtain ⟨rest, heq⟩ := List.head?_eq_some_iff.mp ho
  rw [unfence, heq]
  rfl

theorem jsonSpace {c : Char} (h : PyText.isSpace c = false) : Json.isSpace c = false := by
  by_contra hspace
  have hchar : c = ' ' ∨ c = '\t' ∨ c = '\n' ∨ c = '\r' := by
    simp only [Json.isSpace, Bool.not_eq_false, Bool.or_eq_true, decide_eq_true_eq] at hspace
    tauto
  rcases hchar with rfl | rfl | rfl | rfl <;> cases h

/-- The text of an object begins with a brace. -/
theorem IsObjectText.head [Json.Python] {o : String} (h : IsObjectText o) :
    (Trimming.trimBoth PyText.isSpace o.toList).head? = some '{' := by
  obtain ⟨data, hvalue⟩ := h
  have hhead := Json.head_of_read_dict (Json.value?_eq_some_iff.mp hvalue)
  rw [PyText.strip_eq, String.toList_ofList] at hhead
  have hspace := fun c => Trimming.not_of_head?_trimBoth (p := PyText.isSpace) (s := o.toList) (a := c)
  cases hbody : Trimming.trimBoth PyText.isSpace o.toList with
  | nil =>
    rw [hbody] at hhead
    cases hhead
  | cons c body =>
    rw [hbody] at hhead hspace
    rwa [Json.skipSpaces_of_not_space (jsonSpace (hspace c rfl))] at hhead

/-- Fences around the text of an object that hits no limit do not matter. -/
theorem coerceSummaryStruct_fenced [Json.Python] (py : PyStr) {o : String} (ho : IsObjectText o)
    (hlimits : WithinLimits o) (f : Fence) :
    coerceSummaryStruct py (String.ofList (f.around o.toList)) = coerceSummaryStruct py o := by
  have hhead := ho.head
  obtain ⟨data, hvalue⟩ := ho
  have hloads := hlimits data hvalue
  rw [PyText.strip_eq] at hloads
  rw [coerceSummaryStruct, String.toList_ofList, unfence_around f hhead, coerceSummaryStruct,
    unfence_of_brace hhead, hloads]

/-- The text of an object that hits a limit is taken over as it is, and with it the fences. -/
theorem withinLimits_of_fenced [Json.Python] {py : PyStr} {o : String}
    (h : ∀ f : Fence, coerceSummaryStruct py (String.ofList (f.around o.toList)) =
      coerceSummaryStruct py o) : WithinLimits o := by
  intro data hvalue
  have hhead := IsObjectText.head ⟨data, hvalue⟩
  rcases Json.loads_cutOff (PyText.strip o) with hloads | ⟨e, hloads, -⟩
  · rw [hloads]
    exact Json.value?_eq_some_iff.mp hvalue
  · exfalso
    let f : Fence := ⟨[], [], [], [], [], blank_nil, Or.inl rfl, blank_nil, blank_nil, blank_nil⟩
    have hf := h f
    rw [PyText.strip_eq] at hloads
    rw [coerceSummaryStruct, String.toList_ofList, unfence_around f hhead, coerceSummaryStruct,
      unfence_of_brace hhead, hloads] at hf
    have hintent := congrArg String.toList (congrArg SummaryStruct.intent (Except.ok.inj hf))
    simp only [truncated, String.toList_ofList] at hintent
    -- The intent would begin with a fence, and what is before the opening brace is blank.
    obtain ⟨lead, trail, hlead, -, heq⟩ := Trimming.exists_trimBoth PyText.isSpace o.toList
    obtain ⟨rest, hbody⟩ := List.head?_eq_some_iff.mp hhead
    rw [hbody] at heq
    have hfirst : o.toList.head? = some '`' := by
      have htake := congrArg List.head? hintent
      rw [List.head?_take, List.head?_take, if_neg (by decide), if_neg (by decide)] at htake
      rw [← htake]
      rfl
    rw [heq] at hfirst
    cases lead with
    | nil => exact absurd hfirst (by simp)
    | cons c lead =>
      obtain rfl : c = '`' := Option.some.inj hfirst
      exact absurd (hlead _ List.mem_cons_self) (by decide)

/-! ### Lists -/

theorem listOf_isOk_iff (py : PyStr) {value : PyVal} :
    (∃ xs, listOf py value = .ok xs) ↔ Listable value := by
  rw [Listable]
  by_cases htruthy : value.truthy = true
  · rw [listOf, PyVal.orElse, if_pos htruthy]
    simp only [htruthy, forall_const]
    cases value with
    | list xs => exact ⟨fun _ => Or.inl ⟨xs, rfl⟩, fun _ => ⟨_, rfl⟩⟩
    | str s => exact ⟨fun _ => Or.inr (Or.inl ⟨s, rfl⟩), fun _ => ⟨_, rfl⟩⟩
    | dict d => exact ⟨fun _ => Or.inr (Or.inr ⟨d, rfl⟩), fun _ => ⟨_, rfl⟩⟩
    | _ => simp
  · rw [listOf, PyVal.orElse, if_neg htruthy]
    exact ⟨fun _ h => absurd h htruthy, fun _ => ⟨_, rfl⟩⟩

/-- No text of a list is empty. -/
theorem ne_empty_of_listOf {py : PyStr} {value : PyVal} {texts : List String}
    (h : listOf py value = .ok texts) : ∀ q ∈ texts, q ≠ "" := by
  have htexts : ∀ xs : List PyVal, ∀ q ∈ (xs.filter PyVal.truthy).map py.str, q ≠ "" := by
    intro xs q hq
    obtain ⟨x, hx, rfl⟩ := List.mem_map.mp hq
    exact py.str_ne_empty x (List.mem_filter.mp hx).2
  rw [listOf] at h
  split at h
  · cases h
    exact htexts _
  · cases h
    exact htexts _
  · cases h
    exact htexts _
  · cases h

/-- Texts that are not empty are listed as they are. -/
theorem listOf_strings {py : PyStr} {texts : List String} (h : ∀ q ∈ texts, q ≠ "") :
    listOf py (.list (texts.map .str)) = .ok texts := by
  have horElse : (PyVal.list (texts.map .str)).orElse (.list []) = .list (texts.map .str) := by
    cases texts with
    | nil => rfl
    | cons q texts => rfl
  have hfilter : (texts.map PyVal.str).filter PyVal.truthy = texts.map .str := by
    refine List.filter_eq_self.mpr fun v hv => ?_
    obtain ⟨q, hq, rfl⟩ := List.mem_map.mp hv
    simpa [PyVal.truthy] using h q hq
  have hstr : (texts.map PyVal.str).map py.str = texts := by
    rw [List.map_map]
    exact (List.map_congr_left fun q _ => py.str_str q).trans (List.map_id' _)
  rw [listOf, horElse]
  simp only [hfilter, hstr]

/-! ### The text of a summary -/

theorem readWith_string {r : Json.Reader} (key s : String) {need : ℕ} (hneed : 0 < need) :
    Json.Member.ReadWith r ⟨key, Json.dumpString s, .str s⟩ need 1 where
  value fuel hfuel depth _ rest _ := by
    obtain ⟨fuel, rfl⟩ := Nat.exists_eq_succ_of_ne_zero (show fuel ≠ 0 by omega)
    exact Json.parseValue_dumpString fuel depth s rest
  start rest := (List.dropWhile_cons_of_pos (by decide)).trans (Json.skipSpaces_of_not_space (by decide) _)

theorem readWith_strings {r : Json.Reader} (key : String) (ss : List String) {need : ℕ}
    (hneed : ss.length + 1 < need) :
    Json.Member.ReadWith r ⟨key, Json.dumpStrings ss, .list (ss.map .str)⟩ need 1 where
  value fuel hfuel depth hdepth rest _ := by
    obtain ⟨fuel, rfl⟩ := Nat.exists_eq_succ_of_ne_zero (show fuel ≠ 0 by omega)
    exact Json.parseValue_dumpStrings ss (by omega) hdepth rest
  start rest := (List.dropWhile_cons_of_pos (by decide)).trans (Json.skipSpaces_of_not_space (by decide) _)

/-- The text of a summary is read back. -/
theorem loads_dumps [Json.Python] (r : SummaryStruct) : ∃ data, Json.loads r.dumps = .ok (.dict data) ∧
    PyDict.get data "intent" = .str r.intent ∧
    PyDict.get data "key_questions" = .list (r.keyQuestions.map .str) ∧
    PyDict.get data "action_items" = .list (r.actionItems.map .str) ∧
    PyDict.get data "sentiment" = .str r.sentiment := by
  have hread : ∀ m ∈ r.members, m.ReadWith ⟨Json.Python.standIn, some 4300⟩
      (r.keyQuestions.length + r.actionItems.length + 2) 1 := by
    intro m hm
    simp only [SummaryStruct.members, List.mem_cons, List.not_mem_nil, or_false] at hm
    rcases hm with rfl | rfl | rfl | rfl
    · exact readWith_string _ _ (by omega)
    · exact readWith_strings _ _ (by omega)
    · exact readWith_strings _ _ (by omega)
    · exact readWith_string _ _ (by omega)
  refine ⟨_, Json.read_members _ _ hread (Json.hasRoom_depth le_rfl), ?_⟩
  simp only [List.foldl_cons, List.foldl_nil, PyDict.get, PyDict.get?_set]
  simp

theorem getLast?_dumps (r : SummaryStruct) : r.dumps.toList.getLast? = some '}' := by
  rw [SummaryStruct.dumps, String.toList_ofList, ← List.cons_append, List.getLast?_concat]

/-- No white space is around the text of a summary. -/
theorem trimBoth_dumps (r : SummaryStruct) :
    Trimming.trimBoth PyText.isSpace r.dumps.toList = r.dumps.toList := by
  refine Trimming.trimBoth_eq_self (fun c hc => ?_) fun c hc => ?_
  · rw [SummaryStruct.dumps, String.toList_ofList] at hc
    cases hc
    decide
  · rw [getLast?_dumps] at hc
    cases hc
    decide

/-- A summary that is proper and within the limits is that of its text. -/
theorem coerceSummaryStruct_dumps [Json.Python] (py : PyStr) {r : SummaryStruct} (hproper : r.Proper)
    (hintent : truncated 1000 r.intent = r.intent) (hsentiment : r.sentiment ≠ "") :
    coerceSummaryStruct py r.dumps = .ok r := by
  obtain ⟨data, hloads, hget₁, hget₂, hget₃, hget₄⟩ := loads_dumps r
  -- The text begins with a brace, so there is no fence to take off.
  have hhead : (Trimming.trimBoth PyText.isSpace r.dumps.toList).head? = some '{' := by
    rw [trimBoth_dumps, SummaryStruct.dumps, String.toList_ofList]
    rfl
  have hintent' : (PyVal.str r.intent).orElse (.str "") = .str r.intent := by
    by_cases hempty : r.intent = ""
    · rw [hempty]
      rfl
    · rw [PyVal.orElse, if_pos (by simpa [PyVal.truthy] using hempty)]
  have hsentiment' : (PyVal.str r.sentiment).orElse (.str "neutral") = .str r.sentiment := by
    rw [PyVal.orElse, if_pos (by simpa [PyVal.truthy] using hsentiment)]
  rw [coerceSummaryStruct, unfence_of_brace hhead, trimBoth_dumps, String.ofList_toList, hloads]
  simp only [ofObject, hget₁, hget₂, hget₃, hget₄, hintent', hsentiment', py.str_str, hintent,
    listOf_strings hproper.1, listOf_strings hproper.2]
  rfl

/-! ### All answers -/

theorem truncated_truncated {m n : ℕ} (h : m ≤ n) (s : String) :
    truncated n (truncated m s) = truncated m s := by
  rw [truncated, truncated, String.toList_ofList, List.take_take, Nat.min_eq_right h]

/-- The summary of an object, by its lists. -/
theorem ofObject_eq_ok_iff {py : PyStr} {data : PyDict} {r : SummaryStruct} :
    ofObject py data = .ok r ↔ ∃ keyQuestions actionItems,
      listOf py (PyDict.get data "key_questions") = .ok keyQuestions ∧
      listOf py (PyDict.get data "action_items") = .ok actionItems ∧
      r = ⟨truncated 1000 (py.str ((PyDict.get data "intent").orElse (.str ""))), keyQuestions,
        actionItems, py.str ((PyDict.get data "sentiment").orElse (.str "neutral"))⟩ := by
  rw [ofObject]
  cases listOf py (PyDict.get data "key_questions") with
  | error e => simp [bind, Except.bind]
  | ok keyQuestions =>
    cases listOf py (PyDict.get data "action_items") with
    | error e => simp [bind, Except.bind]
    | ok actionItems =>
      -- Only the two lists can fail.
      simp only [bind, Except.bind, pure, Except.pure, Except.ok.injEq]
      constructor
      · rintro rfl
        exact ⟨keyQuestions, actionItems, rfl, rfl, rfl⟩
      · rintro ⟨_, _, rfl, rfl, rfl⟩
        rfl

/-- A summary is proper and within the limits, wherever it comes from. -/
theorem limits_of_coerce [Json.Python] {py : PyStr} {rawText : String} {r : SummaryStruct}
    (h : coerceSummaryStruct py rawText = .ok r) :
    r.Proper ∧ truncated 1000 r.intent = r.intent ∧ r.sentiment ≠ "" := by
  rw [coerceSummaryStruct] at h
  split at h
  · obtain ⟨keyQuestions, actionItems, hquestions, hitems, rfl⟩ := ofObject_eq_ok_iff.mp h
    refine ⟨⟨ne_empty_of_listOf hquestions, ne_empty_of_listOf hitems⟩,
      truncated_truncated le_rfl _, ?_⟩
    refine py.str_ne_empty _ ?_
    rw [PyVal.orElse]
    split_ifs with htruthy
    · exact htruthy
    · rfl
  · cases h
    exact ⟨⟨fun _ h => absurd h List.not_mem_nil, fun _ h => absurd h List.not_mem_nil⟩,
      truncated_truncated (by decide) _, by simp⟩

/-- An answer gives a summary exactly if, being that of an object, its lists can be gone through. -/
theorem coerce_isOk_iff [Json.Python] (py : PyStr) (rawText : String) :
    (∃ r, coerceSummaryStruct py rawText = .ok r) ↔
      ∀ data, Json.loads (String.ofList (unfence rawText.toList)) = .ok (.dict data) →
        Listable (PyDict.get data "key_questions") ∧ Listable (PyDict.get data "action_items") := by
  rw [coerceSummaryStruct]
  split
  · rename_i data hloads
    simp only [hloads, Except.ok.injEq, PyVal.dict.injEq, forall_eq', ← listOf_isOk_iff py,
      ofObject_eq_ok_iff]
    constructor
    · rintro ⟨r, keyQuestions, actionItems, hquestions, hitems, -⟩
      exact ⟨⟨keyQuestions, hquestions⟩, ⟨actionItems, hitems⟩⟩
    · rintro ⟨⟨keyQuestions, hquestions⟩, ⟨actionItems, hitems⟩⟩
      exact ⟨_, keyQuestions, actionItems, hquestions, hitems, rfl⟩
  · rename_i hother
    exact ⟨fun _ data hloads => absurd hloads (hother data), fun _ => ⟨_, rfl⟩⟩

/-- An answer is summarized as it should be exactly if, being that of an object, its key questions and its
action items can be gone through, or are empty, and no limit of the parser is hit by the text of an
object. -/
theorem canonical_iff [Json.Python] (py : PyStr) (rawText : String) :
    Canonical py rawText ↔
      (∀ data, Json.loads (String.ofList (unfence rawText.toList)) = .ok (.dict data) →
        Listable (PyDict.get data "key_questions") ∧ Listable (PyDict.get data "action_items")) ∧
      WithinLimits rawText := by
  rw [← coerce_isOk_iff py]
  constructor
  · rintro ⟨⟨r, hr, -⟩, hfenced, -⟩
    exact ⟨⟨r, hr⟩, fun data hvalue => withinLimits_of_fenced (hfenced ⟨data, hvalue⟩) data hvalue⟩
  · rintro ⟨⟨r, hr⟩, hlimits⟩
    refine ⟨⟨r, hr, (limits_of_coerce hr).1⟩, fun ho f => coerceSummaryStruct_fenced py ho hlimits f,
      fun r' hr' => ?_⟩
    obtain ⟨hproper, hintent, hsentiment⟩ := limits_of_coerce hr'
    exact coerceSummaryStruct_dumps py hproper hintent hsentiment

/-- The text of a string is the string. -/
def textOfString : PyVal → String
  | .str s => s
  | _ => "?"

theorem textOfString_ne_empty (v : PyVal) (hv : v.truthy = true) : textOfString v ≠ "" := by
  cases v with
  | str s => simpa [PyVal.truthy, textOfString] using hv
  | _ => simp [textOfString]

theorem textOfString_str (s : String) : textOfString (.str s) = s := rfl

/-- Texts of strings only. -/
def strings : PyStr := ⟨textOfString, textOfString_str, textOfString_ne_empty⟩

/-- A number where a list should be. -/
def numberOfQuestions : String := Json.dumpsObject [("key_questions", .inr 5)]

theorem loads_numberOfQuestions [Json.Python] :
    Json.loads (String.ofList (unfence numberOfQuestions.toList)) =
      .ok (.dict [("key_questions", .int 5)]) := by
  have htext : unfence numberOfQuestions.toList = numberOfQuestions.toList := by decide +kernel
  rw [htext, String.ofList_toList]
  refine Json.read_dumpsObject ("key_questions", .inr 5) [] (fun m hm => ?_)
    (Json.hasRoom_depth one_le_two)
  obtain rfl := List.mem_singleton.mp hm
  rfl

/-- The answer with a number where a list should be. -/
theorem numberOfQuestions_raises : ¬ ∃ _ : Json.Python, Canonical strings numberOfQuestions := by
  rintro ⟨_, h⟩
  obtain ⟨r, hr, -⟩ := h.total
  have hlist := ((coerce_isOk_iff strings _).mp ⟨r, hr⟩ _ loads_numberOfQuestions).1
  rcases hlist rfl with ⟨xs, hxs⟩ | ⟨s, hs⟩ | ⟨d, hd⟩
  · exact PyVal.noConfusion hxs
  · exact PyVal.noConfusion hs
  · exact PyVal.noConfusion hd

end History
