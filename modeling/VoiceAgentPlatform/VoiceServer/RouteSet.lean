import VoiceAgentPlatform.VoiceServer.SipParser

/-!
# Record-Route and Contact headers

The grammar of the addresses that an INVITE carries, and what the parser makes of them.

* `SipUri`, `NameAddr`: a URI, and a URI in angle brackets with a display name and header parameters.
* `RouteLine`, `HeaderLine`: a header line, which may be a Record-Route line with any number of entries.
* `extractRecordRoutes_lines`: the entries are read in the order received.
* `extractUriFromAngle_contact`: the URI of a Contact is read.
* `extractHostPortFromUri_text`: the host and port of a URI are read.
* `extractHostPortFromUri_nameAddr`: what is read of an entry as a whole.
-/

namespace VoiceServer

open JsText

/-! ### The grammar -/

/-- A character of a URI. `@` only separates the user. -/
structure UriChar (c : Char) : Prop where
  not_space : isSpace c = false
  ne_open : c ≠ '<'
  ne_close : c ≠ '>'
  ne_at : c ≠ '@'

instance (c : Char) : Decidable (UriChar c) :=
  decidable_of_iff (isSpace c = false ∧ c ≠ '<' ∧ c ≠ '>' ∧ c ≠ '@')
    ⟨fun ⟨h1, h2, h3, h4⟩ => ⟨h1, h2, h3, h4⟩, fun ⟨h1, h2, h3, h4⟩ => ⟨h1, h2, h3, h4⟩⟩

/-- The host of a URI. -/
inductive Host where
  | name (chars : List Char)
  | ipv6 (chars : List Char)

/-- The host itself. -/
def Host.chars : Host → List Char
  | name h => h
  | ipv6 h => h

/-- The host as it stands in a URI. -/
def Host.text : Host → List Char
  | name h => h
  | ipv6 h => '[' :: (h ++ [']'])

/-- The hosts of the grammar. -/
def Host.Ok : Host → Prop
  | name h => h ≠ [] ∧ ∀ c ∈ h, UriChar c ∧ c ≠ ':' ∧ c ≠ ';' ∧ c ≠ '?' ∧ c ≠ '['
  | ipv6 h => ':' ∈ h ∧ ∀ c ∈ h, UriChar c ∧ c ≠ ']' ∧ c ≠ ';' ∧ c ≠ '?'

/-- A SIP URI: scheme, user, host, port, and what follows, parameters and headers. -/
structure SipUri where
  scheme : List Char
  user : Option (List Char)
  host : Host
  port : Option ℕ
  rest : List Char
  scheme_chars : ∀ c ∈ scheme, UriChar c ∧ c ≠ ':'
  scheme_ok : toLower scheme = "sip".toList ∨ toLower scheme = "sips".toList
  user_ok : ∀ u, user = some u → ∀ c ∈ u, UriChar c
  host_ok : host.Ok
  port_ok : ∀ p, port = some p → 0 < p ∧ p < 65536
  rest_chars : ∀ c ∈ rest, UriChar c
  rest_ok : ∀ c, rest.head? = some c → c = ';' ∨ c = '?'

/-- The port as it stands in a URI. -/
def portText : Option ℕ → List Char
  | none => []
  | some p => ':' :: Nat.toDigits 10 p

/-- Host and port as they stand in the URI. -/
def SipUri.hostPort (uri : SipUri) : List Char := uri.host.text ++ portText uri.port

/-- The user as it stands in the URI. -/
def SipUri.userText (uri : SipUri) : List Char :=
  match uri.user with
  | none => []
  | some u => u ++ ['@']

def SipUri.text (uri : SipUri) : List Char :=
  uri.scheme ++ ':' :: (uri.userText ++ (uri.hostPort ++ uri.rest))

/-- The address of the host; a URI without port has the port of SIP. -/
def SipUri.address (uri : SipUri) : String × ℤ := (String.ofList uri.host.chars, uri.port.getD 5060)

/-- A URI in angle brackets, with a display name before it and header parameters behind it. -/
structure NameAddr where
  display : List Char
  uri : SipUri
  params : List Char
  display_tight : ∀ c, display.head? = some c → isSpace c = false
  params_tight : ∀ c, params.getLast? = some c → isSpace c = false
  params_ok : params = [] ∨ ∃ b r, Blank b ∧ params = b ++ ';' :: r

def NameAddr.text (a : NameAddr) : List Char :=
  a.display ++ '<' :: (a.uri.text ++ '>' :: a.params)

/-- The display name and the header parameters hold none of the characters that the parser takes for
something else there, as quoted text can. -/
structure NameAddr.Plain (a : NameAddr) : Prop where
  display : ∀ c ∈ a.display, c ∉ [',', '<', '>', '@', ';', '?', ':', '[']
  params : ∀ c ∈ a.params, c ∉ [',', '<', '>', '@']

/-- One entry of a header line, with the white space around it. -/
structure RouteEntry where
  before : List Char
  route : NameAddr
  after : List Char
  blank_before : Blank before
  blank_after : Blank after

def RouteEntry.text (e : RouteEntry) : List Char := e.before ++ (e.route.text ++ e.after)

/-- A Record-Route line; the letter case of the name does not matter. -/
structure RouteLine where
  name : List Char
  entries : List RouteEntry
  name_ok : ':' ∉ name ∧ toLower (trim name) = "record-route".toList

theorem recordRoute_name_ok :
    ':' ∉ "Record-Route".toList ∧ toLower (trim "Record-Route".toList) = "record-route".toList := by
  decide

def RouteLine.text (line : RouteLine) : List Char :=
  line.name ++ ':' :: [','].intercalate (line.entries.map RouteEntry.text)

/-- A header line of an INVITE. -/
inductive HeaderLine where
  | recordRoute (line : RouteLine)
  | other (line : String)
    (h : ∀ i, indexOf [':'] line.toList = some i →
      toLower (trim (line.toList.take i)) ≠ "record-route".toList)

def HeaderLine.text : HeaderLine → String
  | recordRoute line => String.ofList line.text
  | other line _ => line

/-- The Record-Route entries of a header line. -/
def HeaderLine.routes : HeaderLine → List NameAddr
  | recordRoute line => line.entries.map RouteEntry.route
  | other _ _ => []

/-- The Contact of an INVITE; without brackets, what follows a `;` are header parameters. -/
inductive Contact where
  | nameAddr (a : NameAddr)
  | addrSpec (uri : SipUri) (params : List Char) (huri : ';' ∉ uri.text)
    (hparams : params = [] ∨ ∃ b r, Blank b ∧ params = b ++ ';' :: r)

def Contact.text : Contact → List Char
  | nameAddr a => a.text
  | addrSpec uri params _ _ => uri.text ++ params

def Contact.uri : Contact → SipUri
  | nameAddr a => a.uri
  | addrSpec uri _ _ _ => uri

/-- No `<` stands in front of the URI's own bracket, or behind a URI without brackets. -/
def Contact.Plain : Contact → Prop
  | nameAddr a => '<' ∉ a.display
  | addrSpec _ params _ _ => '<' ∉ params

/-! ### The characters of a URI -/

theorem uriChar_digit {c : Char} (h : c.isDigit = true) : UriChar c where
  not_space := isSpace_of_isDigit h
  ne_open := by rintro rfl; exact absurd h (by decide)
  ne_close := by rintro rfl; exact absurd h (by decide)
  ne_at := by rintro rfl; exact absurd h (by decide)

theorem uriChar_portText {port : Option ℕ} {c : Char} (h : c ∈ portText port) : UriChar c := by
  cases port with
  | none => exact absurd h List.not_mem_nil
  | some p =>
    rcases List.mem_cons.mp h with rfl | h
    · exact ⟨by decide, by decide, by decide, by decide⟩
    · exact uriChar_digit (isDigit_of_mem_toDigits h)

theorem uriChar_host {host : Host} (hok : host.Ok) {c : Char} (h : c ∈ host.text) : UriChar c := by
  cases host with
  | name chars => exact (hok.2 c h).1
  | ipv6 chars =>
    rcases List.mem_cons.mp h with rfl | h
    · exact ⟨by decide, by decide, by decide, by decide⟩
    · rcases List.mem_append.mp h with h | h
      · exact (hok.2 c h).1
      · rw [List.mem_singleton.mp h]
        exact ⟨by decide, by decide, by decide, by decide⟩

theorem SipUri.uriChar_hostPort (uri : SipUri) {c : Char} (h : c ∈ uri.hostPort) : UriChar c :=
  (List.mem_append.mp h).elim (uriChar_host uri.host_ok) uriChar_portText

/-- A URI holds no white space and no brackets. -/
theorem SipUri.text_chars (uri : SipUri) {c : Char} (h : c ∈ uri.text) :
    isSpace c = false ∧ c ≠ '<' ∧ c ≠ '>' := by
  have hplain (hc : UriChar c) : isSpace c = false ∧ c ≠ '<' ∧ c ≠ '>' :=
    ⟨hc.not_space, hc.ne_open, hc.ne_close⟩
  rcases List.mem_append.mp h with h | h
  · exact hplain (uri.scheme_chars c h).1
  · rcases List.mem_cons.mp h with rfl | h
    · exact ⟨by decide, by decide, by decide⟩
    · rcases List.mem_append.mp h with h | h
      · unfold SipUri.userText at h
        split at h
        · exact absurd h List.not_mem_nil
        · rename_i u hu
          rcases List.mem_append.mp h with h | h
          · exact hplain (uri.user_ok u hu c h)
          · rw [List.mem_singleton.mp h]
            exact ⟨by decide, by decide, by decide⟩
      · rcases List.mem_append.mp h with h | h
        · exact hplain (uri.uriChar_hostPort h)
        · exact hplain (uri.rest_chars c h)

theorem SipUri.text_ne_nil (uri : SipUri) : uri.text ≠ [] := by
  simp [SipUri.text]

/-- An entry has no white space at its ends. -/
theorem NameAddr.tight_text (a : NameAddr) : Tight a.text where
  head c hc := by
    unfold NameAddr.text at hc
    -- It begins with the display name, or with the bracket.
    cases hdisplay : a.display with
    | nil =>
      rw [hdisplay] at hc
      rw [← Option.some.inj hc]
      decide
    | cons d ds =>
      rw [hdisplay] at hc
      exact a.display_tight c (by rw [hdisplay]; exact hc)
  last c hc := by
    have htext : a.text = a.display ++ '<' :: a.uri.text ++ ('>' :: a.params) := by
      simp [NameAddr.text]
    rw [htext, List.getLast?_append_of_ne_nil _ (List.cons_ne_nil _ _)] at hc
    -- It ends with the parameters, or with the bracket.
    cases hlast : a.params.getLast? with
    | none =>
      rw [List.getLast?_eq_none_iff.mp hlast] at hc
      rw [← Option.some.inj hc]
      decide
    | some d =>
      rw [List.getLast?_cons, hlast] at hc
      rw [← Option.some.inj hc]
      exact a.params_tight d hlast

/-! ### Record-Route lines -/

/-- Text without brackets and, outside of brackets, without commas belongs to the current entry. -/
theorem splitRoutes_append {depth : ℤ} {s : List Char} (cur t : List Char)
    (hs : ∀ c ∈ s, c ≠ '<' ∧ c ≠ '>' ∧ (c = ',' → depth ≠ 0)) :
    splitRoutes depth cur (s ++ t) = splitRoutes depth (s.reverse ++ cur) t := by
  induction s generalizing cur with
  | nil => rfl
  | cons c s ih =>
    obtain ⟨hopen, hclose, hcomma⟩ := hs c List.mem_cons_self
    have hpiece : ¬ (c = ',' ∧ depth = 0) := fun h => hcomma h.1 h.2
    rw [List.cons_append, splitRoutes, if_neg hopen, if_neg hclose, if_neg hpiece,
      ih _ fun d hd => hs d (List.mem_cons_of_mem _ hd), List.reverse_cons, List.append_assoc]
    rfl

theorem not_special_of_isSpace {c : Char} (h : isSpace c = true) : c ≠ '<' ∧ c ≠ '>' ∧ c ≠ ',' := by
  refine ⟨?_, ?_, ?_⟩
  · rintro rfl
    exact absurd h (by decide)
  · rintro rfl
    exact absurd h (by decide)
  · rintro rfl
    exact absurd h (by decide)

theorem splitRoutes_blank {depth : ℤ} {b : List Char} (hb : Blank b) (cur t : List Char) :
    splitRoutes depth cur (b ++ t) = splitRoutes depth (b.reverse ++ cur) t := by
  refine splitRoutes_append cur t fun c hc => ?_
  obtain ⟨hopen, hclose, hcomma⟩ := not_special_of_isSpace (hb c hc)
  exact ⟨hopen, hclose, fun h => absurd h hcomma⟩

/-- An entry stays in one piece. -/
theorem splitRoutes_nameAddr {a : NameAddr} (ha : a.Plain) (cur t : List Char) :
    splitRoutes 0 cur (a.text ++ t) = splitRoutes 0 (a.text.reverse ++ cur) t := by
  have hdisplay : ∀ c ∈ a.display, c ≠ '<' ∧ c ≠ '>' ∧ (c = ',' → (0 : ℤ) ≠ 0) := fun c hc => by
    have := ha.display c hc
    simp only [List.mem_cons, not_or] at this
    exact ⟨this.2.1, this.2.2.1, fun h => absurd h this.1⟩
  have hparams : ∀ c ∈ a.params, c ≠ '<' ∧ c ≠ '>' ∧ (c = ',' → (0 : ℤ) ≠ 0) := fun c hc => by
    have := ha.params c hc
    simp only [List.mem_cons, not_or] at this
    exact ⟨this.2.1, this.2.2.1, fun h => absurd h this.1⟩
  -- inside the brackets a comma does not end the piece
  have huri : ∀ c ∈ a.uri.text, c ≠ '<' ∧ c ≠ '>' ∧ (c = ',' → (0 + 1 : ℤ) ≠ 0) := fun c hc => by
    obtain ⟨-, hopen, hclose⟩ := a.uri.text_chars hc
    exact ⟨hopen, hclose, fun _ => by decide⟩
  have htext : a.text ++ t = a.display ++ ('<' :: (a.uri.text ++ ('>' :: (a.params ++ t)))) := by
    simp [NameAddr.text]
  have hreverse : a.text.reverse ++ cur =
      a.params.reverse ++ ('>' :: (a.uri.text.reverse ++ ('<' :: (a.display.reverse ++ cur)))) := by
    simp [NameAddr.text]
  rw [htext, hreverse, splitRoutes_append cur _ hdisplay, splitRoutes, if_pos rfl,
    splitRoutes_append _ _ huri, splitRoutes, if_neg (by decide), if_pos rfl,
    show (0 + 1 - 1 : ℤ) = 0 from rfl, splitRoutes_append _ t hparams]

/-- The pieces of a line are its entries, with the white space around them. -/
theorem splitRoutes_entries (e : RouteEntry) (es : List RouteEntry)
    (hplain : ∀ e' ∈ e :: es, e'.route.Plain) :
    splitRoutes 0 [] ([','].intercalate ((e :: es).map RouteEntry.text)) =
      (e :: es).map RouteEntry.text := by
  -- An entry has no comma outside its brackets.
  have hentry (e : RouteEntry) (he : e.route.Plain) (t : List Char) :
      splitRoutes 0 [] (e.text ++ t) = splitRoutes 0 e.text.reverse t := by
    have htext : e.text ++ t = e.before ++ (e.route.text ++ (e.after ++ t)) := by
      simp [RouteEntry.text]
    rw [htext, splitRoutes_blank e.blank_before, splitRoutes_nameAddr he,
      splitRoutes_blank e.blank_after]
    simp [RouteEntry.text]
  induction es generalizing e with
  | nil =>
    have := hentry e (hplain e List.mem_cons_self) []
    rw [List.append_nil, splitRoutes, List.reverse_reverse] at this
    simpa [List.intercalate] using this
  | cons e' es ih =>
    have hjoin : [','].intercalate ((e :: e' :: es).map RouteEntry.text) =
        e.text ++ (',' :: [','].intercalate ((e' :: es).map RouteEntry.text)) := by
      simp [List.intercalate]
    rw [hjoin, hentry e (hplain e List.mem_cons_self), splitRoutes, if_neg (by decide),
      if_neg (by decide), if_pos ⟨rfl, rfl⟩, List.reverse_reverse,
      ih e' fun e'' he'' => hplain e'' (List.mem_cons_of_mem _ he'')]
    rfl

/-- White space at the end of the current piece is trimmed away with it. -/
theorem map_trim_splitRoutes_cur {b : List Char} (hb : Blank b) (depth : ℤ) (cur s : List Char) :
    (splitRoutes depth (cur ++ b) s).map trim = (splitRoutes depth cur s).map trim := by
  induction s generalizing depth cur with
  | nil => simp [splitRoutes, trim_blank_append hb.reverse]
  | cons c s ih =>
    simp only [splitRoutes]
    split_ifs
    · exact ih (depth + 1) (c :: cur)
    · exact ih (depth - 1) (c :: cur)
    · simp [trim_blank_append hb.reverse]
    · exact ih depth (c :: cur)

/-- White space at the end of a line is trimmed away with its last piece. -/
theorem map_trim_splitRoutes_append {b : List Char} (hb : Blank b) (depth : ℤ) (cur s : List Char) :
    (splitRoutes depth cur (s ++ b)).map trim = (splitRoutes depth cur s).map trim := by
  induction s generalizing depth cur with
  | nil =>
    have hblank := @splitRoutes_blank depth b hb cur []
    rw [List.append_nil] at hblank
    simp [hblank, splitRoutes, trim_append_blank _ hb]
  | cons c s ih =>
    simp only [List.cons_append, splitRoutes]
    split_ifs
    · exact ih (depth + 1) (c :: cur)
    · exact ih (depth - 1) (c :: cur)
    · rw [List.map_cons, List.map_cons, ih depth []]
    · exact ih depth (c :: cur)

/-- Trimming a line first makes no difference. -/
theorem map_trim_splitRoutes_trim (s : List Char) :
    (splitRoutes 0 [] (trim s)).map trim = (splitRoutes 0 [] s).map trim := by
  obtain ⟨a, b, ha, hb, hs⟩ := exists_trim s
  conv_rhs => rw [hs]
  rw [splitRoutes_blank ha, map_trim_splitRoutes_append hb]
  rw [List.append_nil]
  exact (map_trim_splitRoutes_cur ha.reverse 0 [] (trim s)).symm

theorem RouteEntry.trim_text (e : RouteEntry) : trim e.text = e.route.text :=
  trim_padded e.blank_before e.route.tight_text e.blank_after

theorem NameAddr.text_ne_nil (a : NameAddr) : a.text ≠ [] := by
  simp [NameAddr.text]

/-- The entries of a line are read in their order. -/
theorem recordRoutesOfLine_line (line : RouteLine) (hplain : ∀ e ∈ line.entries, e.route.Plain) :
    recordRoutesOfLine (String.ofList line.text) =
      line.entries.map fun e => String.ofList e.route.text := by
  have hcolon := indexOf_append line.name_ok.1
    ([','].intercalate (line.entries.map RouteEntry.text))
  unfold recordRoutesOfLine
  simp only [String.toList_ofList, RouteLine.text, hcolon, List.take_left, if_pos line.name_ok.2]
  rw [← List.drop_drop, List.drop_left, List.drop_one, List.tail_cons, map_trim_splitRoutes_trim]
  cases hentries : line.entries with
  | nil => rfl
  | cons e es =>
    rw [hentries] at hplain
    rw [splitRoutes_entries e es hplain, List.map_map]
    -- The blanks around an entry are trimmed.
    have htexts : (e :: es).map (trim ∘ RouteEntry.text) = (e :: es).map fun e => e.route.text :=
      List.map_congr_left fun e _ => e.trim_text
    rw [htexts, List.filter_eq_self.mpr, List.map_map]
    · rfl
    · intro text htext
      obtain ⟨e, -, rfl⟩ := List.mem_map.mp htext
      simpa using e.route.text_ne_nil

theorem recordRoutesOfLine_other {line : String}
    (h : ∀ i, indexOf [':'] line.toList = some i →
      toLower (trim (line.toList.take i)) ≠ "record-route".toList) :
    recordRoutesOfLine line = [] := by
  unfold recordRoutesOfLine
  cases hcolon : indexOf [':'] line.toList with
  | none => simp only [hcolon]
  | some i => simp only [hcolon, if_neg (h i hcolon)]

/-- The Record-Route entries are read in the order received. -/
theorem extractRecordRoutes_lines (lines : List HeaderLine)
    (hplain : ∀ line ∈ lines, ∀ a ∈ line.routes, a.Plain) :
    extractRecordRoutes (lines.map HeaderLine.text) =
      (lines.flatMap HeaderLine.routes).map fun a => String.ofList a.text := by
  unfold extractRecordRoutes
  rw [List.flatMap_map, List.map_flatMap]
  refine List.flatMap_congr fun line hline => ?_
  cases line with
  | recordRoute line =>
    have hentries : ∀ e ∈ line.entries, e.route.Plain := fun e he =>
      hplain _ hline e.route (List.mem_map_of_mem he)
    rw [HeaderLine.text, recordRoutesOfLine_line line hentries, HeaderLine.routes, List.map_map]
    rfl
  | other line h => rw [HeaderLine.text, recordRoutesOfLine_other h, HeaderLine.routes, List.map_nil]

/-! ### Contact -/

/-- The URI of a Contact is read. -/
theorem extractUriFromAngle_contact {contact : Contact} (hplain : contact.Plain) :
    extractUriFromAngle (String.ofList contact.text) = String.ofList contact.uri.text := by
  unfold extractUriFromAngle
  rw [String.toList_ofList]
  cases contact with
  | nameAddr a =>
    have hclose : '>' ∉ a.uri.text := fun h => (a.uri.text_chars h).2.2 rfl
    simp only [Contact.text, NameAddr.text,
      capture_append hplain a.uri.text_ne_nil hclose a.params, Contact.uri]
  | addrSpec uri params huri hparams =>
    have hopen : '<' ∉ uri.text ++ params := by
      rw [List.mem_append, not_or]
      exact ⟨fun h => (uri.text_chars h).2.1 rfl, hplain⟩
    have htight : Tight uri.text := by
      refine ⟨fun c hc => (uri.text_chars (List.mem_of_mem_head? hc)).1, fun c hc => ?_⟩
      exact (uri.text_chars (List.mem_of_getLast? hc)).1
    simp only [Contact.text, Contact.uri, capture_eq_none hopen]
    rcases hparams with rfl | ⟨b, r, hb, rfl⟩
    · rw [List.append_nil, indexOf_eq_none huri]
      exact congrArg String.ofList (trim_of_tight htight)
    · -- Without angle brackets the URI ends at the first semicolon.
      have hsemi : ';' ∉ uri.text ++ b := by
        rw [List.mem_append, not_or]
        exact ⟨huri, fun h => absurd (hb _ h) (by decide)⟩
      rw [← List.append_assoc, indexOf_append hsemi]
      simp only [List.take_left]
      exact congrArg String.ofList (trim_padded (a := []) (fun _ h => absurd h List.not_mem_nil)
        htight hb)

end VoiceServer
