import Mathlib
import VoiceAgentPlatform.VoiceServer.RouteSet

/-!
# Splitting Record-Route lines

`extractRecordRoutes` cuts a line at the commas at bracket depth zero. It does not know quoted text, so
a comma in a quoted display name cuts an entry in two, and a bracket there hides the commas that
follow.

* `RouteAddr`, `RouteField`: entries with any display name, URI and parameters, and the header lines
  of a message.
* `hidesCommas`, `depthAfter`: what the scanner makes of a text.
* `Whole`: the commas of a line that the scanner sees are those between its entries.
* `extractRecordRoutes_iff`: exactly the entries are returned if and only if all lines are `Whole`.
-/

namespace VoiceServer

open JsText

/-! ### Entries and lines -/

/-- A token or a quoted string; between the quotes everything is allowed. -/
inductive Word where
  | token (chars : List Char) (ne : chars ≠ [])
      (ok : ∀ c ∈ chars, isSpace c = false ∧ c ∉ ['<', '>', ',', ';', '"', '='])
  | quoted (chars : List Char)

def Word.text : Word → List Char
  | token chars _ _ => chars
  | quoted chars => '"' :: (chars ++ ['"'])

/-- A header parameter, with the white space in front of it. -/
structure RouteParam where
  before : List Char
  name : Word
  value : Option Word
  blank_before : Blank before

def RouteParam.text (p : RouteParam) : List Char :=
  p.before ++ ';' :: (p.name.text ++ p.value.elim [] fun v => '=' :: v.text)

/-- An entry: an optional display name, a URI in angle brackets and parameters. -/
structure RouteAddr where
  display : Option Word
  /-- White space between display name and URI. -/
  gap : List Char
  uri : List Char
  params : List RouteParam
  blank_gap : Blank gap
  uri_ok : '<' ∉ uri ∧ '>' ∉ uri

/-- The display name, with the white space behind it. -/
def RouteAddr.front (a : RouteAddr) : List Char := a.display.elim [] fun w => w.text ++ a.gap

def RouteAddr.text (a : RouteAddr) : List Char :=
  a.front ++ '<' :: (a.uri ++ '>' :: a.params.flatMap RouteParam.text)

/-- An entry of a line, with the white space around it. -/
structure ListedRoute where
  before : List Char
  route : RouteAddr
  after : List Char
  blank_before : Blank before
  blank_after : Blank after

def ListedRoute.text (e : ListedRoute) : List Char := e.before ++ (e.route.text ++ e.after)

/-- A header line: a Record-Route with any number of entries, or another line. -/
inductive RouteField where
  | recordRoute (name : List Char) (entries : List ListedRoute)
      (name_ok : ':' ∉ name ∧ toLower (trim name) = "record-route".toList)
  | other (line : String)
      (h : ∀ i, indexOf [':'] line.toList = some i →
        toLower (trim (line.toList.take i)) ≠ "record-route".toList)

/-- The value of a line with these entries. -/
def fieldValue (entries : List ListedRoute) : List Char :=
  [','].intercalate (entries.map ListedRoute.text)

namespace RouteField

def text : RouteField → String
  | recordRoute name entries _ => String.ofList (name ++ ':' :: fieldValue entries)
  | other line _ => line

/-- The entries of a line. -/
def routes : RouteField → List ListedRoute
  | recordRoute _ entries _ => entries
  | other _ _ => []

end RouteField

/-! ### What the scanner sees -/

/-- The bracket depth behind a character. -/
def nextDepth (depth : ℤ) (c : Char) : ℤ :=
  if c = '<' then depth + 1 else if c = '>' then depth - 1 else depth

/-- The bracket depth behind a text. -/
def depthAfter (depth : ℤ) (s : List Char) : ℤ := s.foldl nextDepth depth

/-- No comma of the text stands at depth zero. -/
def hidesCommas : ℤ → List Char → Bool
  | _, [] => true
  | depth, c :: s => !(c = ',' && depth = 0) && hidesCommas (nextDepth depth c) s

/-- The scanner sees the commas between the entries of a line and no others: those within an entry
stand at another depth than zero, and behind every entry but the last the depth is zero. -/
def Whole (entries : List ListedRoute) : Prop :=
  (∀ e ∈ entries, hidesCommas 0 e.route.text = true) ∧
    ∀ e ∈ entries.dropLast, depthAfter 0 e.route.text = 0

instance (entries : List ListedRoute) : Decidable (Whole entries) :=
  inferInstanceAs (Decidable (_ ∧ _))

theorem depthAfter_append (depth : ℤ) (s t : List Char) :
    depthAfter depth (s ++ t) = depthAfter (depthAfter depth s) t := List.foldl_append

theorem hidesCommas_append (depth : ℤ) (s t : List Char) :
    hidesCommas depth (s ++ t) = (hidesCommas depth s && hidesCommas (depthAfter depth s) t) := by
  induction s generalizing depth with
  | nil => rfl
  | cons c s ih =>
    rw [List.cons_append, hidesCommas, ih, hidesCommas, Bool.and_assoc]
    rfl

theorem depthAfter_blank {b : List Char} (hb : Blank b) (depth : ℤ) : depthAfter depth b = depth := by
  induction b with
  | nil => rfl
  | cons c b ih =>
    obtain ⟨hopen, hclose, -⟩ := not_special_of_isSpace (hb c List.mem_cons_self)
    rw [depthAfter, List.foldl_cons, nextDepth, if_neg hopen, if_neg hclose]
    exact ih fun d hd => hb d (List.mem_cons_of_mem _ hd)

theorem hidesCommas_blank {b : List Char} (hb : Blank b) (depth : ℤ) : hidesCommas depth b = true := by
  induction b with
  | nil => rfl
  | cons c b ih =>
    obtain ⟨hopen, hclose, hcomma⟩ := not_special_of_isSpace (hb c List.mem_cons_self)
    rw [hidesCommas, nextDepth, if_neg hopen, if_neg hclose,
      ih fun d hd => hb d (List.mem_cons_of_mem _ hd)]
    simp [hcomma]

/-- A text with hidden commas belongs to the current piece. -/
theorem splitRoutes_hidden {depth : ℤ} {s : List Char} (hs : hidesCommas depth s = true)
    (cur t : List Char) :
    splitRoutes depth cur (s ++ t) = splitRoutes (depthAfter depth s) (s.reverse ++ cur) t := by
  induction s generalizing depth cur with
  | nil => rfl
  | cons c s ih =>
    rw [hidesCommas, Bool.and_eq_true, Bool.not_eq_true', Bool.and_eq_false_iff,
      decide_eq_false_iff_not, decide_eq_false_iff_not] at hs
    obtain ⟨hcomma, hs⟩ := hs
    have hreverse : (c :: s).reverse ++ cur = s.reverse ++ c :: cur := by simp
    rw [List.cons_append, splitRoutes, hreverse, depthAfter, List.foldl_cons]
    unfold nextDepth at hs ⊢
    split_ifs at hs ⊢ with hopen hclose hcut
    · exact ih hs _
    · exact ih hs _
    · exact absurd hcut.1 (hcomma.resolve_right (not_not_intro hcut.2))
    · exact ih hs _

/-- The first comma that is not hidden. -/
theorem exists_comma {depth : ℤ} {s : List Char} (h : hidesCommas depth s = false) :
    ∃ u v, s = u ++ ',' :: v ∧ hidesCommas depth u = true ∧ depthAfter depth u = 0 := by
  induction s generalizing depth with
  | nil => exact absurd h nofun
  | cons c s ih =>
    by_cases hcut : c = ',' ∧ depth = 0
    · exact ⟨[], s, by rw [hcut.1]; rfl, rfl, hcut.2⟩
    · have hfirst : (c = ',' && depth = 0) = false := by
        rw [Bool.and_eq_false_iff, decide_eq_false_iff_not, decide_eq_false_iff_not]
        exact not_and_or.mp hcut
      rw [hidesCommas, hfirst, Bool.not_false, Bool.true_and] at h
      obtain ⟨u, v, rfl, hu, hdepth⟩ := ih h
      refine ⟨c :: u, v, rfl, ?_, hdepth⟩
      rw [hidesCommas, hfirst, hu]
      rfl

/-- The current piece is the beginning of the next one that comes off. -/
theorem splitRoutes_head (depth : ℤ) (cur s : List Char) :
    ∃ w rest, splitRoutes depth cur s = (cur.reverse ++ w) :: rest := by
  induction s generalizing depth cur with
  | nil => exact ⟨[], [], by rw [splitRoutes, List.append_nil]⟩
  | cons c s ih =>
    have hlonger (depth : ℤ) :
        ∃ w rest, splitRoutes depth (c :: cur) s = (cur.reverse ++ w) :: rest := by
      obtain ⟨w, rest, h⟩ := ih depth (c :: cur)
      exact ⟨c :: w, rest, by rw [h, List.reverse_cons, List.append_assoc]; rfl⟩
    rw [splitRoutes]
    split_ifs
    · exact hlonger (depth + 1)
    · exact hlonger (depth - 1)
    · exact ⟨[], _, by rw [List.append_nil]⟩
    · exact hlonger depth

/-! ### One entry -/

theorem trim_ne_nil {s : List Char} {c : Char} (hc : c ∈ s) (h : isSpace c = false) : trim s ≠ [] :=
  Trimming.trimBoth_ne_nil h hc

theorem length_trim_le (s : List Char) : (trim s).length ≤ s.length := by
  obtain ⟨a, b, -, -, hs⟩ := exists_trim s
  conv_rhs => rw [hs]
  simp only [List.length_append]
  omega

theorem Word.text_ne_nil (w : Word) : w.text ≠ [] := by
  match w with
  | token chars ne ok => exact ne
  | quoted chars => exact List.cons_ne_nil _ _

/-- The first and the last character of a word are no blanks, and the first is no comma. -/
theorem Word.head_text {w : Word} {c : Char} (h : w.text.head? = some c) :
    isSpace c = false ∧ c ≠ ',' := by
  match w with
  | token chars ne ok =>
    obtain ⟨hspace, hspecial⟩ := ok c (List.mem_of_mem_head? h)
    refine ⟨hspace, ?_⟩
    rintro rfl
    exact hspecial (by decide)
  | quoted chars =>
    obtain rfl := Option.some.inj h
    exact ⟨by decide, by decide⟩

theorem Word.last_text {w : Word} {c : Char} (h : w.text.getLast? = some c) : isSpace c = false := by
  match w with
  | token chars ne ok => exact (ok c (List.mem_of_getLast? h)).1
  | quoted chars =>
    rw [text, ← List.cons_append, List.getLast?_append, List.getLast?_singleton, Option.some_or] at h
    obtain rfl := Option.some.inj h
    decide

theorem getLast?_append_word (s : List Char) (w : Word) :
    (s ++ w.text).getLast? = w.text.getLast? :=
  List.getLast?_append_of_ne_nil s w.text_ne_nil

theorem RouteParam.text_ne_nil (p : RouteParam) : p.text ≠ [] :=
  List.append_ne_nil_of_right_ne_nil _ (List.cons_ne_nil _ _)

theorem RouteParam.last_text {p : RouteParam} {c : Char} (h : p.text.getLast? = some c) :
    isSpace c = false := by
  match hvalue : p.value with
  | none =>
    have htext : p.text = (p.before ++ [';']) ++ p.name.text := by simp [text, hvalue]
    rw [htext, getLast?_append_word] at h
    exact Word.last_text h
  | some v =>
    have htext : p.text = (p.before ++ ';' :: (p.name.text ++ ['='])) ++ v.text := by
      simp [text, hvalue]
    rw [htext, getLast?_append_word] at h
    exact Word.last_text h

theorem RouteAddr.text_ne_nil (a : RouteAddr) : a.text ≠ [] :=
  List.append_ne_nil_of_right_ne_nil _ (List.cons_ne_nil _ _)

theorem RouteAddr.head_text {a : RouteAddr} {c : Char} (h : a.text.head? = some c) :
    isSpace c = false ∧ c ≠ ',' := by
  match hdisplay : a.display with
  | none =>
    rw [text, front, hdisplay] at h
    obtain rfl := Option.some.inj h
    exact ⟨by decide, by decide⟩
  | some w =>
    rw [text, front, hdisplay, Option.elim_some, List.append_assoc,
      List.head?_append_of_ne_nil _ w.text_ne_nil] at h
    exact Word.head_text h

/-- An entry has no white space at its ends. -/
theorem RouteAddr.tight_text (a : RouteAddr) : Tight a.text where
  head c h := (a.head_text h).1
  last c h := by
    rcases List.eq_nil_or_concat a.params with hnil | ⟨ps, p, hparams⟩
    · have htext : a.text = (a.front ++ '<' :: a.uri) ++ ['>'] := by simp [text, hnil]
      rw [htext, List.getLast?_append, List.getLast?_singleton, Option.some_or] at h
      obtain rfl := Option.some.inj h
      decide
    · have htext : a.text =
          (a.front ++ '<' :: (a.uri ++ '>' :: ps.flatMap RouteParam.text)) ++ p.text := by
        simp [text, hparams]
      rw [htext, List.getLast?_append_of_ne_nil _ p.text_ne_nil] at h
      exact RouteParam.last_text h

theorem ListedRoute.trim_text (e : ListedRoute) : trim e.text = e.route.text :=
  trim_padded e.blank_before e.route.tight_text e.blank_after

/-! ### Lines -/

/-- The pieces of a line value that are returned. -/
def pieces (depth : ℤ) (cur s : List Char) : List (List Char) :=
  ((splitRoutes depth cur s).map trim).filter (· ≠ [])

/-- A piece that is not blank comes first. -/
theorem pieces_of_split {depth : ℤ} {cur s piece : List Char} {rest : List (List Char)}
    (h : splitRoutes depth cur s = piece :: rest) {c : Char} (hc : c ∈ piece)
    (hspace : isSpace c = false) :
    pieces depth cur s = trim piece :: (rest.map trim).filter (· ≠ []) := by
  rw [pieces, h, List.map_cons]
  exact List.filter_cons_of_pos (by simpa using trim_ne_nil hc hspace)

/-- A comma in sight within the first entry: something shorter comes first. -/
theorem pieces_of_visible {e : ListedRoute} (h : hidesCommas 0 e.route.text = false) (t : List Char) :
    ∃ p rest, pieces 0 [] (e.text ++ t) = p :: rest ∧ p ≠ e.route.text := by
  obtain ⟨u, v, htext, hu, hdepth⟩ := exists_comma h
  have hvalue : e.text ++ t = (e.before ++ u) ++ ',' :: (v ++ (e.after ++ t)) := by
    simp [ListedRoute.text, htext]
  have hhidden : hidesCommas 0 (e.before ++ u) = true := by
    rw [hidesCommas_append, hidesCommas_blank e.blank_before, depthAfter_blank e.blank_before, hu]
    rfl
  have hdepth' : depthAfter 0 (e.before ++ u) = 0 := by
    rw [depthAfter_append, depthAfter_blank e.blank_before, hdepth]
  -- The piece is not empty, since an entry begins with no comma.
  obtain ⟨c, hc⟩ : ∃ c, u.head? = some c := by
    match u with
    | [] => exact absurd rfl (RouteAddr.head_text (a := e.route) (by rw [htext]; rfl)).2
    | c :: u => exact ⟨c, rfl⟩
  have hspace : isSpace c = false := by
    refine (RouteAddr.head_text (a := e.route) (c := c) ?_).1
    rw [htext, List.head?_append, hc, Option.some_or]
  have hsplit : splitRoutes 0 [] (e.text ++ t) =
      (e.before ++ u) :: splitRoutes 0 [] (v ++ (e.after ++ t)) := by
    rw [hvalue, splitRoutes_hidden hhidden, hdepth', splitRoutes, if_neg (by decide),
      if_neg (by decide), if_pos ⟨rfl, rfl⟩, List.append_nil, List.reverse_reverse]
  refine ⟨_, _, pieces_of_split hsplit (List.mem_append_right _ (List.mem_of_mem_head? hc)) hspace, ?_⟩
  intro heq
  have hlength := congrArg List.length heq
  rw [trim_blank_append e.blank_before, htext, List.length_append, List.length_cons] at hlength
  have hle := length_trim_le u
  omega

theorem ListedRoute.hidesCommas_text (e : ListedRoute) :
    hidesCommas 0 e.text = hidesCommas 0 e.route.text := by
  rw [text, hidesCommas_append, hidesCommas_blank e.blank_before, depthAfter_blank e.blank_before,
    hidesCommas_append, hidesCommas_blank e.blank_after, Bool.true_and, Bool.and_true]

theorem ListedRoute.depthAfter_text (e : ListedRoute) :
    depthAfter 0 e.text = depthAfter 0 e.route.text := by
  rw [text, depthAfter_append, depthAfter_blank e.blank_before, depthAfter_append,
    depthAfter_blank e.blank_after]

/-- An entry in one piece, up to the comma behind it. -/
theorem splitRoutes_entry {e : ListedRoute} (h : hidesCommas 0 e.route.text = true) (t : List Char) :
    splitRoutes 0 [] (e.text ++ t) = splitRoutes (depthAfter 0 e.route.text) e.text.reverse t := by
  rw [splitRoutes_hidden (e.hidesCommas_text.trans h), e.depthAfter_text, List.append_nil]

/-- Only blanks behind an entry are trimmed away. -/
theorem blank_of_trim_eq {e : ListedRoute} {s : List Char} (h : trim (e.text ++ s) = e.route.text) :
    Blank s := by
  obtain ⟨a, b, ha, hb, hs⟩ := exists_trim (e.text ++ s)
  have hstart (t : List Char) : trimStart (e.route.text ++ t) = e.route.text ++ t := by
    refine trimStart_eq_self fun c hc => (RouteAddr.head_text (a := e.route) ?_).1
    rwa [List.head?_append_of_ne_nil _ e.route.text_ne_nil] at hc
  have htexts := congrArg trimStart hs
  rw [h, trimStart_blank_append ha, hstart, ListedRoute.text, List.append_assoc, List.append_assoc,
    trimStart_blank_append e.blank_before, hstart] at htexts
  have hrest := List.append_cancel_left htexts
  rw [← hrest] at hb
  exact fun c hc => hb c (List.mem_append_right _ hc)

/-- The comma behind the first entry out of sight: something longer comes first. -/
theorem pieces_of_unbalanced {e : ListedRoute} (h : hidesCommas 0 e.route.text = true)
    (hdepth : depthAfter 0 e.route.text ≠ 0) (t : List Char) :
    ∃ p rest, pieces 0 [] (e.text ++ ',' :: t) = p :: rest ∧ p ≠ e.route.text := by
  obtain ⟨w, rest, hhead⟩ := splitRoutes_head (depthAfter 0 e.route.text) (',' :: e.text.reverse) t
  have hsplit : splitRoutes 0 [] (e.text ++ ',' :: t) = (e.text ++ ',' :: w) :: rest := by
    rw [splitRoutes_entry h, splitRoutes, if_neg (by decide), if_neg (by decide),
      if_neg fun hcut => hdepth hcut.2, hhead, List.reverse_cons, List.reverse_reverse,
      List.append_assoc]
    rfl
  have hcomma : ',' ∈ e.text ++ ',' :: w := List.mem_append_right _ List.mem_cons_self
  refine ⟨_, _, pieces_of_split hsplit hcomma (by decide), fun heq => ?_⟩
  exact absurd (blank_of_trim_eq heq ',' List.mem_cons_self) (by decide)

theorem pieces_of_last {e : ListedRoute} (h : hidesCommas 0 e.route.text = true) :
    pieces 0 [] e.text = [e.route.text] := by
  have hsplit := splitRoutes_entry h []
  rw [List.append_nil, splitRoutes, List.reverse_reverse] at hsplit
  rw [pieces, hsplit, List.map_singleton, e.trim_text]
  exact List.filter_cons_of_pos (by simpa using e.route.text_ne_nil)

theorem pieces_of_balanced {e : ListedRoute} (h : hidesCommas 0 e.route.text = true)
    (hdepth : depthAfter 0 e.route.text = 0) (t : List Char) :
    pieces 0 [] (e.text ++ ',' :: t) = e.route.text :: pieces 0 [] t := by
  have hsplit : splitRoutes 0 [] (e.text ++ ',' :: t) = e.text :: splitRoutes 0 [] t := by
    rw [splitRoutes_entry h, hdepth, splitRoutes, if_neg (by decide), if_neg (by decide),
      if_pos ⟨rfl, rfl⟩, List.reverse_reverse]
  rw [pieces, hsplit, List.map_cons, e.trim_text]
  exact List.filter_cons_of_pos (by simpa using e.route.text_ne_nil)

theorem whole_cons_cons (e e' : ListedRoute) (es : List ListedRoute) :
    Whole (e :: e' :: es) ↔
      hidesCommas 0 e.route.text = true ∧ depthAfter 0 e.route.text = 0 ∧ Whole (e' :: es) := by
  rw [Whole, Whole, List.dropLast_cons_cons, List.forall_mem_cons (l := e' :: es),
    List.forall_mem_cons (l := (e' :: es).dropLast)]
  exact ⟨fun ⟨⟨h, hs⟩, hd, hds⟩ => ⟨h, hd, hs, hds⟩, fun ⟨h, hd, hs, hds⟩ => ⟨⟨h, hs⟩, hd, hds⟩⟩

/-- What is read of a line is its entries exactly if the line is whole, whatever the lines behind it
bring: at the first entry that is not cut right, something else is returned. -/
theorem pieces_append_iff (e : ListedRoute) (es : List ListedRoute) (xs ys : List (List Char)) :
    pieces 0 [] (fieldValue (e :: es)) ++ xs = (e :: es).map (fun e => e.route.text) ++ ys ↔
      Whole (e :: es) ∧ xs = ys := by
  -- A first piece that is not the whole entry settles the comparison.
  have hdiffers {e : ListedRoute} {es : List ListedRoute} {value : List Char}
      (h : ∃ p rest, pieces 0 [] value = p :: rest ∧ p ≠ e.route.text) :
      ¬ pieces 0 [] value ++ xs = (e :: es).map (fun e => e.route.text) ++ ys := by
    obtain ⟨p, rest, hpieces, hne⟩ := h
    rw [hpieces, List.map_cons]
    exact fun heq => hne (List.cons.inj heq).1
  induction es generalizing e with
  | nil =>
    have hvalue : fieldValue [e] = e.text := by simp [fieldValue]
    rw [hvalue]
    by_cases h : hidesCommas 0 e.route.text = true
    · rw [pieces_of_last h]
      simp [Whole, h]
    · rw [Bool.not_eq_true] at h
      have hvisible := pieces_of_visible h []
      rw [List.append_nil] at hvisible
      exact iff_of_false (hdiffers hvisible) fun hwhole => by simp [Whole, h] at hwhole
  | cons e' es ih =>
    have hvalue : fieldValue (e :: e' :: es) = e.text ++ ',' :: fieldValue (e' :: es) := by
      simp [fieldValue]
    rw [hvalue, whole_cons_cons]
    by_cases h : hidesCommas 0 e.route.text = true
    · -- An entry that leaves the depth off zero swallows the next comma.
      by_cases hdepth : depthAfter 0 e.route.text = 0
      · rw [pieces_of_balanced h hdepth, List.map_cons, List.cons_append, List.cons_append,
          List.cons.injEq, eq_self, true_and]
        rw [and_iff_right h, and_iff_right hdepth]
        exact ih e'
      · exact iff_of_false (hdiffers (pieces_of_unbalanced h hdepth _)) fun hwhole => hdepth hwhole.1.2.1
    · rw [Bool.not_eq_true] at h
      refine iff_of_false (hdiffers (pieces_of_visible h _)) fun hwhole => ?_
      rw [h] at hwhole
      exact absurd hwhole.1.1 nofun

/-! ### All lines -/

/-- The text of an entry. -/
def RouteAddr.string (a : RouteAddr) : String := String.ofList a.text

theorem recordRoutesOfLine_recordRoute {name : List Char} {entries : List ListedRoute}
    (name_ok : ':' ∉ name ∧ toLower (trim name) = "record-route".toList) :
    recordRoutesOfLine (RouteField.recordRoute name entries name_ok).text =
      (pieces 0 [] (fieldValue entries)).map String.ofList := by
  have hcolon := indexOf_append name_ok.1 (fieldValue entries)
  have hdrop : (name ++ ':' :: fieldValue entries).drop (name.length + 1) = fieldValue entries := by
    rw [List.drop_append]
    simp
  unfold recordRoutesOfLine
  simp only [RouteField.text, String.toList_ofList, hcolon, List.take_left, if_pos name_ok.2, hdrop,
    map_trim_splitRoutes_trim, pieces]

/-- One line in front of others. -/
theorem recordRoutesOfLine_append_iff (f : RouteField) (xs ys : List String) :
    recordRoutesOfLine f.text ++ xs = f.routes.map (fun e => e.route.string) ++ ys ↔
      Whole f.routes ∧ xs = ys := by
  match f with
  | .other line h =>
    rw [RouteField.text, recordRoutesOfLine_other h, RouteField.routes]
    simp [Whole]
  | .recordRoute name entries name_ok =>
    rw [recordRoutesOfLine_recordRoute name_ok, RouteField.routes]
    match entries with
    | [] =>
      have hnone : pieces 0 [] (fieldValue []) = [] := rfl
      rw [hnone]
      simp [Whole]
    | e :: es =>
      -- Texts are compared as lists of characters.
      have hinjective : Function.Injective (List.map String.toList) :=
        List.map_injective_iff.mpr fun _ _ => String.toList_inj.mp
      have hlists : ((pieces 0 [] (fieldValue (e :: es))).map String.ofList ++ xs).map String.toList =
          pieces 0 [] (fieldValue (e :: es)) ++ xs.map String.toList := by
        simp
      have hlists' : ((e :: es).map (fun e => e.route.string) ++ ys).map String.toList =
          (e :: es).map (fun e => e.route.text) ++ ys.map String.toList := by
        simp [RouteAddr.string]
      rw [← hinjective.eq_iff, hlists, hlists', pieces_append_iff, hinjective.eq_iff]

/-- The entries of all lines are returned in their order exactly if the scanner sees the commas
between the entries of each line and no others. -/
theorem extractRecordRoutes_iff (fields : List RouteField) :
    extractRecordRoutes (fields.map RouteField.text) =
        (fields.flatMap RouteField.routes).map (fun e => e.route.string) ↔
      ∀ f ∈ fields, Whole f.routes := by
  induction fields with
  | nil => exact iff_of_true rfl nofun
  | cons f fields ih =>
    rw [List.forall_mem_cons, ← ih, List.map_cons, List.flatMap_cons, List.map_append]
    exact recordRoutesOfLine_append_iff f _ _

theorem blank_gap_quotedComma : Blank [' '] := by
  simp [Blank, isSpace]

theorem uri_ok_quotedComma : '<' ∉ "sip:h".toList ∧ '>' ∉ "sip:h".toList := by
  simp

/-- A line whose display name has a comma between its quotes. -/
def quotedComma : RouteField :=
  .recordRoute "Record-Route".toList
    [{ before := [], route :=
        { display := some (.quoted ['a', ',', 'b']), gap := [' '], uri := "sip:h".toList, params := []
          blank_gap := blank_gap_quotedComma, uri_ok := uri_ok_quotedComma }
       after := [], blank_before := blank_nil, blank_after := blank_nil }]
    recordRoute_name_ok

/-- Its entry is cut in two. -/
theorem quotedComma_cut :
    ¬ ∀ fields : List RouteField, extractRecordRoutes (fields.map RouteField.text) =
      (fields.flatMap RouteField.routes).map fun e => e.route.string := by
  intro hall
  have hwhole := (extractRecordRoutes_iff [quotedComma]).mp (hall [quotedComma]) quotedComma
    List.mem_cons_self
  revert hwhole
  decide +kernel

end VoiceServer
