import VoiceAgentPlatform.VoiceServer.SipParser

/-!
# The sections of an SDP body

An SDP body has a session part and media sections, each with at most one `c=` line. `parseSdp` tracks
with one flag whether it has seen an audio section: every `c=` line in front of it counts as that of
the session, and audio sections that follow on it are read too.

* `Connection`, `Part`, `MediaSection`, `SdpBody`: a body and its text.
* `parseSdp_text`: what the parser returns, in terms of the sections.
* `Attributed`: the address, the port and the payload types are those of the first audio section.
* `parseSdp_iff`: the parser returns the right endpoint exactly for these bodies.
* `parseSdp_buildSdpAnswer`: the own answer is read back.
-/

namespace VoiceServer

open JsText

/-! ### Bodies -/

/-- A text without white space. -/
def Solid (s : List Char) : Prop := s ≠ [] ∧ ∀ c ∈ s, isSpace c = false

instance (s : List Char) : Decidable (Solid s) := inferInstanceAs (Decidable (_ ∧ _))

/-- A `c=` line: an IPv4 or IPv6 address with an optional suffix. -/
structure Connection where
  ipv6 : Bool
  address : List Char
  suffix : Option (List Char)
  address_ok : Solid address ∧ '/' ∉ address
  suffix_ok : ∀ s, suffix = some s → ∀ c ∈ s, isSpace c = false

def Connection.text (c : Connection) : List Char :=
  ['c', '=', 'I', 'N', ' ', 'I', 'P', if c.ipv6 then '6' else '4', ' '] ++
    (c.address ++ c.suffix.elim [] fun s => '/' :: s)

/-- A line of another type. -/
structure OtherLine where
  text : List Char
  no_break : '\r' ∉ text ∧ '\n' ∉ text
  not_connection : startsWith ['c', '='] text = false
  not_media : startsWith ['m', '='] text = false

/-- The lines of the session or of a media section, behind its `m=` line. -/
structure Part where
  before : List OtherLine
  connection : Option Connection
  after : List OtherLine

def Part.lines (p : Part) : List (List Char) :=
  p.before.map OtherLine.text ++ p.connection.toList.map Connection.text ++
    p.after.map OtherLine.text

/-- A format of a media section: a payload type, or the name of a format that is no number. -/
inductive Format where
  | payloadType (n : ℕ)
  | name (chars : List Char) (ok : Solid chars) (no_number : number chars = none)

def Format.text : Format → List Char
  | payloadType n => Nat.toDigits 10 n
  | name chars _ _ => chars

/-- The payload type of a format. -/
def Format.payloadType? : Format → Option JsNumber
  | payloadType n => some (.finite n)
  | name _ _ _ => none

/-- A media section; the port can have a number of ports behind it. -/
structure MediaSection where
  kind : List Char
  port : ℕ
  portCount : Option ℕ
  protocol : List Char
  formats : List Format
  part : Part
  kind_ok : Solid kind
  protocol_ok : Solid protocol

namespace MediaSection

/-- The fields of the `m=` line behind the kind. -/
def fields (s : MediaSection) : List (List Char) :=
  (Nat.toDigits 10 s.port ++ s.portCount.elim [] fun n => '/' :: Nat.toDigits 10 n) ::
    s.protocol :: s.formats.map Format.text

def mediaLine (s : MediaSection) : List Char :=
  'm' :: '=' :: (s.kind ++ s.fields.flatMap fun field => ' ' :: field)

def lines (s : MediaSection) : List (List Char) := s.mediaLine :: s.part.lines

def payloadTypes (s : MediaSection) : List JsNumber := s.formats.filterMap Format.payloadType?

/-- The kind of the section is audio. -/
def IsAudio (s : MediaSection) : Prop := s.kind = ['a', 'u', 'd', 'i', 'o']

instance (s : MediaSection) : Decidable s.IsAudio := inferInstanceAs (Decidable (_ = _))

/-- The kind of the section begins as audio does. -/
def LikeAudio (s : MediaSection) : Bool := startsWith ['a', 'u', 'd', 'i', 'o'] s.kind

end MediaSection

/-- The ends of lines that the parser knows. -/
inductive LineEnd where
  | lf
  | crlf

def LineEnd.chars : LineEnd → List Char
  | lf => ['\n']
  | crlf => ['\r', '\n']

/-- A body whose first audio section has the sections `before` in front of it. -/
structure SdpBody where
  session : Part
  before : List MediaSection
  audio : MediaSection
  after : List MediaSection
  is_audio : audio.IsAudio
  first : ∀ s ∈ before, ¬ s.IsAudio

namespace SdpBody

def sections (b : SdpBody) : List MediaSection := b.before ++ b.audio :: b.after

def lines (b : SdpBody) : List (List Char) := b.session.lines ++ b.sections.flatMap MediaSection.lines

/-- The text of a body. -/
def text (b : SdpBody) (lineEnd : LineEnd) : String :=
  String.ofList (b.lines.flatMap fun line => line ++ lineEnd.chars)

/-- The media endpoint that a body describes: the port and the payload types of the first audio
section, and the address of its own `c=` line if it has one, else that of the session. -/
def endpoint (b : SdpBody) : SdpMediaInfo where
  remoteIp := ((b.audio.part.connection <|> b.session.connection).map fun c =>
    String.ofList c.address).getD ""
  remotePort := some b.audio.port
  payloadTypes := b.audio.payloadTypes

end SdpBody

/-! ### Lines -/

theorem Solid.no_break {s : List Char} (h : Solid s) : '\r' ∉ s ∧ '\n' ∉ s :=
  ⟨fun hmem => absurd (h.2 _ hmem) (by decide), fun hmem => absurd (h.2 _ hmem) (by decide)⟩

theorem solid_toDigits (n : ℕ) : Solid (Nat.toDigits 10 n) :=
  ⟨Nat.toDigits_ne_nil, fun _ hc => isSpace_of_isDigit (isDigit_of_mem_toDigits hc)⟩

theorem Format.solid_text (f : Format) : Solid f.text := by
  match f with
  | payloadType n => exact solid_toDigits n
  | name chars ok _ => exact ok

namespace MediaSection

theorem solid_fields (s : MediaSection) : ∀ field ∈ s.fields, Solid field := by
  intro field hfield
  rw [fields, List.mem_cons, List.mem_cons, List.mem_map] at hfield
  rcases hfield with rfl | rfl | ⟨f, -, rfl⟩
  · refine ⟨List.append_ne_nil_of_left_ne_nil Nat.toDigits_ne_nil _, fun c hc => ?_⟩
    rcases List.mem_append.mp hc with hc | hc
    · exact (solid_toDigits s.port).2 c hc
    · match hcount : s.portCount with
      | none =>
        rw [hcount] at hc
        exact absurd hc List.not_mem_nil
      | some n =>
        rw [hcount] at hc
        rcases List.mem_cons.mp hc with rfl | hc
        · decide
        · exact (solid_toDigits n).2 c hc
  · exact s.protocol_ok
  · exact f.solid_text

/-- The fields of the `m=` line are read. -/
theorem splitSpaces_mediaLine (s : MediaSection) :
    splitSpaces false [] s.mediaLine = ('m' :: '=' :: s.kind) :: s.fields := by
  have hfirst : ∀ c ∈ 'm' :: '=' :: s.kind, isSpace c = false := by
    intro c hc
    rw [List.mem_cons, List.mem_cons] at hc
    rcases hc with rfl | rfl | hc
    · decide
    · decide
    · exact s.kind_ok.2 c hc
  exact splitSpaces_words hfirst s.solid_fields

theorem no_break_mediaLine (s : MediaSection) : '\r' ∉ s.mediaLine ∧ '\n' ∉ s.mediaLine := by
  have hbreak (c : Char) (hspace : isSpace c = true) (hblank : c ≠ ' ') : c ∉ s.mediaLine := by
    intro hmem
    rw [mediaLine, List.mem_cons, List.mem_cons, List.mem_append, List.mem_flatMap] at hmem
    rcases hmem with rfl | rfl | hmem | ⟨field, hfield, hmem⟩
    · exact absurd hspace (by decide)
    · exact absurd hspace (by decide)
    · exact absurd hspace (by rw [s.kind_ok.2 c hmem]; decide)
    · rcases List.mem_cons.mp hmem with rfl | hmem
      · exact hblank rfl
      · exact absurd hspace (by rw [(s.solid_fields field hfield).2 c hmem]; decide)
  exact ⟨hbreak _ (by decide) (by decide), hbreak _ (by decide) (by decide)⟩

/-- The port of the `m=` line. -/
theorem parseInt10_port (s : MediaSection) : s.fields.head?.bind parseInt10 = some (s.port : ℤ) := by
  refine parseInt10_toDigits s.port fun c hc => ?_
  match hcount : s.portCount with
  | none =>
    rw [hcount] at hc
    exact absurd hc nofun
  | some n =>
    rw [hcount] at hc
    obtain rfl := Option.some.inj hc
    decide

theorem filterMap_number_formats (s : MediaSection) :
    (s.formats.map Format.text).filterMap number = s.payloadTypes := by
  rw [payloadTypes, List.filterMap_map]
  refine List.filterMap_congr fun f _ => ?_
  match f with
  | .payloadType n => exact number_toDigits n
  | .name chars _ no_number => exact no_number

end MediaSection

theorem Connection.address_solid (c : Connection) : ∀ d ∈ c.text.drop 9, isSpace d = false := by
  intro d hd
  have hdrop : c.text.drop 9 = c.address ++ c.suffix.elim [] fun s => '/' :: s := rfl
  rw [hdrop, List.mem_append] at hd
  rcases hd with hd | hd
  · exact c.address_ok.1.2 d hd
  · match hsuffix : c.suffix with
    | none =>
      rw [hsuffix] at hd
      exact absurd hd List.not_mem_nil
    | some suffix =>
      rw [hsuffix] at hd
      rcases List.mem_cons.mp hd with rfl | hd
      · decide
      · exact c.suffix_ok suffix hsuffix d hd

/-- The address of a `c=` line is read, without its suffix. -/
theorem connectionIp_text (c : Connection) : connectionIp c.text = c.address := by
  have hlength : "c=IN IP4 ".length = 9 := by decide
  have htight : Tight (c.text.drop 9) :=
    ⟨fun d hd => c.address_solid d (List.mem_of_mem_head? hd),
      fun d hd => c.address_solid d (List.mem_of_getLast? hd)⟩
  have hdrop : c.text.drop 9 = c.address ++ c.suffix.elim [] fun s => '/' :: s := rfl
  rw [connectionIp, hlength, trim_of_tight htight, hdrop]
  match c.suffix with
  | none =>
    rw [Option.elim_none, List.append_nil, splitOn_of_notMem c.address_ok.2]
    rfl
  | some suffix =>
    rw [Option.elim_some, splitOn_append c.address_ok.2]
    rfl

theorem Connection.no_break (c : Connection) : '\r' ∉ c.text ∧ '\n' ∉ c.text := by
  have hbreak (d : Char) (hspace : isSpace d = true) (hnotMem : d ∉ c.text.take 9) : d ∉ c.text := by
    intro hmem
    rw [← List.take_append_drop 9 c.text, List.mem_append] at hmem
    rcases hmem with hmem | hmem
    · exact hnotMem hmem
    · exact absurd hspace (by rw [c.address_solid d hmem]; decide)
  have htake : c.text.take 9 =
      ['c', '=', 'I', 'N', ' ', 'I', 'P', if c.ipv6 then '6' else '4', ' '] := rfl
  constructor
  · refine hbreak _ (by decide) ?_
    rw [htake]
    cases c.ipv6 <;> decide
  · refine hbreak _ (by decide) ?_
    rw [htake]
    cases c.ipv6 <;> decide

theorem Part.no_break (p : Part) : ∀ line ∈ p.lines, '\r' ∉ line ∧ '\n' ∉ line := by
  intro line hline
  rw [Part.lines, List.mem_append, List.mem_append, List.mem_map, List.mem_map, List.mem_map] at hline
  rcases hline with (⟨l, -, rfl⟩ | ⟨c, -, rfl⟩) | ⟨l, -, rfl⟩
  · exact l.no_break
  · exact c.no_break
  · exact l.no_break

namespace SdpBody

theorem no_break (b : SdpBody) : ∀ line ∈ b.lines, '\r' ∉ line ∧ '\n' ∉ line := by
  intro line hline
  rcases List.mem_append.mp hline with hline | hline
  · exact b.session.no_break line hline
  · obtain ⟨s, -, hline⟩ := List.mem_flatMap.mp hline
    rcases List.mem_cons.mp hline with rfl | hline
    · exact s.no_break_mediaLine
    · exact s.part.no_break line hline

/-- The lines of a body are read; the text behind the last line end is empty. -/
theorem splitLines_text (b : SdpBody) (lineEnd : LineEnd) :
    splitLines [] (b.text lineEnd).toList = b.lines ++ [[]] := by
  rw [text, String.toList_ofList]
  have hlines := b.no_break
  generalize b.lines = lines at hlines ⊢
  induction lines with
  | nil => rfl
  | cons line lines ih =>
    obtain ⟨hline, hlines⟩ := List.forall_mem_cons.mp hlines
    rw [List.flatMap_cons, List.append_assoc]
    match lineEnd with
    | .lf => exact (splitLines_append hline [] _).1.trans (congrArg _ (ih hlines))
    | .crlf => exact (splitLines_append hline [] _).2.trans (congrArg _ (ih hlines))

end SdpBody

/-! ### The scan -/

namespace SdpScan

/-- What a `c=` line does, if there is one. -/
def connect (st : SdpScan) (c : Option Connection) : SdpScan :=
  match c with
  | none => st
  | some c =>
    if st.inMediaSection then { st with mediaIp := c.address } else { st with sessionIp := c.address }

/-- What the `m=` line of an audio section does. -/
def enter (st : SdpScan) (s : MediaSection) : SdpScan :=
  { st with inMediaSection := true, remotePort := some s.port, payloadTypes := s.payloadTypes }

end SdpScan

theorem scanSdp_other (st : SdpScan) (line : OtherLine) (rest : List (List Char)) :
    scanSdp st (line.text :: rest) = scanSdp st rest := by
  have h4 : startsWith "c=IN IP4 ".toList line.text = false :=
    startsWith_append_eq_false line.not_connection "IN IP4 ".toList
  have h6 : startsWith "c=IN IP6 ".toList line.text = false :=
    startsWith_append_eq_false line.not_connection "IN IP6 ".toList
  have haudio : startsWith "m=audio ".toList line.text = false :=
    startsWith_append_eq_false line.not_media "audio ".toList
  have hmedia : startsWith "m=".toList line.text = false := line.not_media
  rw [scanSdp, h4, h6, haudio, hmedia]
  simp

theorem scanSdp_others (st : SdpScan) (others : List OtherLine) (rest : List (List Char)) :
    scanSdp st (others.map OtherLine.text ++ rest) = scanSdp st rest := by
  induction others with
  | nil => rfl
  | cons line others ih => exact (scanSdp_other st line _).trans ih

theorem scanSdp_connection (st : SdpScan) (c : Connection) (rest : List (List Char)) :
    scanSdp st (c.text :: rest) = scanSdp (st.connect (some c)) rest := by
  have hip : (startsWith "c=IN IP4 ".toList c.text || startsWith "c=IN IP6 ".toList c.text) = true := by
    rw [Bool.or_eq_true]
    match hversion : c.ipv6 with
    | false =>
      refine Or.inl ?_
      rw [Connection.text, hversion]
      exact startsWith_append _ _
    | true =>
      refine Or.inr ?_
      rw [Connection.text, hversion]
      exact startsWith_append _ _
  rw [scanSdp, if_pos hip, connectionIp_text, SdpScan.connect]
  split <;> rfl

/-- The lines of a part have no effect but that of its `c=` line. -/
theorem scanSdp_part (st : SdpScan) (p : Part) (rest : List (List Char)) :
    scanSdp st (p.lines ++ rest) = scanSdp (st.connect p.connection) rest := by
  rw [Part.lines, List.append_assoc, List.append_assoc, scanSdp_others]
  match p.connection with
  | none => exact scanSdp_others st p.after rest
  | some c => exact (scanSdp_connection st c _).trans (scanSdp_others _ p.after rest)

namespace MediaSection

/-- How the parser sees the `m=` line of a section. -/
theorem startsWith_mediaLine (s : MediaSection) :
    (startsWith "m=audio ".toList s.mediaLine = true ↔ s.IsAudio) ∧
      startsWith "m=audio".toList s.mediaLine = s.LikeAudio := by
  have hkind : ' ' ∉ s.kind := fun hmem => absurd (s.kind_ok.2 _ hmem) (by decide)
  have haudio : "m=audio".toList = ['m', '='] ++ ['a', 'u', 'd', 'i', 'o'] := by simp
  have hblank : "m=audio ".toList = ['m', '='] ++ (['a', 'u', 'd', 'i', 'o'] ++ [' ']) := by simp
  have hdrop (pre t : List Char) : startsWith (['m', '='] ++ pre) ('m' :: '=' :: t) =
      startsWith pre t := rfl
  rw [mediaLine, fields, List.flatMap_cons, List.cons_append, haudio, hblank, hdrop, hdrop]
  exact ⟨startsWith_word_iff (by decide) hkind _, startsWith_append_cons (by decide) _ _⟩

theorem likeAudio_of_isAudio {s : MediaSection} (h : s.IsAudio) : s.LikeAudio = true := by
  rw [IsAudio] at h
  rw [LikeAudio, h]
  decide

/-- What the scan does with a section: it enters audio, behind it it ends at any other kind, and from
the rest it takes the address. -/
theorem scanSdp_lines (st : SdpScan) (s : MediaSection) (rest : List (List Char)) :
    scanSdp st (s.lines ++ rest) =
      if s.IsAudio then scanSdp ((st.enter s).connect s.part.connection) rest
      else if st.inMediaSection ∧ s.LikeAudio = false then st
      else scanSdp (st.connect s.part.connection) rest := by
  obtain ⟨haudio, hlike⟩ := s.startsWith_mediaLine
  -- The line of the section is no connection line.
  have hc (digit : Char) :
      startsWith ['c', '=', 'I', 'N', ' ', 'I', 'P', digit, ' '] s.mediaLine = false := rfl
  have h4 : startsWith "c=IN IP4 ".toList s.mediaLine = false := hc '4'
  have h6 : startsWith "c=IN IP6 ".toList s.mediaLine = false := hc '6'
  have hmedia : startsWith "m=".toList s.mediaLine = true := rfl
  rw [lines, List.cons_append, scanSdp, h4, h6, hlike, hmedia]
  simp only [Bool.or_self, Bool.false_eq_true, if_false, Bool.true_and, haudio]
  by_cases his : s.IsAudio
  · rw [if_pos his, if_pos his, scanSdp_part, s.splitSpaces_mediaLine]
    have hport := s.parseInt10_port
    have hformats := s.filterMap_number_formats
    rw [fields, List.head?_cons] at hport
    simp only [fields, List.getElem?_cons_succ, List.getElem?_cons_zero, List.drop_succ_cons,
      List.drop_zero, hport, hformats, SdpScan.enter]
  · rw [if_neg his, if_neg his, scanSdp_part]
    match st.inMediaSection, s.LikeAudio with
    | false, _ => simp
    | true, true => simp
    | true, false => simp

end MediaSection

/-- The last `c=` line of some sections. -/
def lastConnection (sections : List MediaSection) : Option Connection :=
  (sections.filterMap fun s => s.part.connection).getLast?

/-- The last audio section of some sections. -/
def lastAudio (sections : List MediaSection) : Option MediaSection :=
  (sections.filter fun s => s.IsAudio).getLast?

theorem getLast?_cons_orElse {α : Type*} (a : α) (l : List α) :
    (a :: l).getLast? = (l.getLast? <|> some a) := by
  rw [List.getLast?_cons]
  match l.getLast? with
  | none => rfl
  | some b => rfl

theorem lastConnection_cons (s : MediaSection) (sections : List MediaSection) :
    lastConnection (s :: sections) = (lastConnection sections <|> s.part.connection) := by
  rw [lastConnection, lastConnection, List.filterMap_cons]
  match s.part.connection with
  | none => simp
  | some c => exact getLast?_cons_orElse c _

theorem lastAudio_cons (s : MediaSection) (sections : List MediaSection) :
    lastAudio (s :: sections) = (lastAudio sections <|> if s.IsAudio then some s else none) := by
  rw [lastAudio, lastAudio, List.filter_cons]
  by_cases his : s.IsAudio
  · rw [if_pos (decide_eq_true his), if_pos his]
    exact getLast?_cons_orElse s _
  · rw [if_neg (by simpa using his), if_neg his]
    simp

namespace SdpScan

theorem connect_connect (st : SdpScan) (c d : Option Connection) :
    (st.connect c).connect d = st.connect (d <|> c) := by
  match c, d with
  | none, none | none, some _ | some _, none => rfl
  | some c, some d =>
    rw [connect, connect]
    split <;> simp_all [connect]

theorem enter_connect {st : SdpScan} (hin : st.inMediaSection = true) (c : Option Connection)
    (s : MediaSection) : (st.connect c).enter s = (st.enter s).connect c := by
  match c with
  | none => rfl
  | some c => simp [connect, enter, hin]

theorem connect_inMediaSection (st : SdpScan) (c : Option Connection) :
    (st.connect c).inMediaSection = st.inMediaSection := by
  match c with
  | none => rfl
  | some c =>
    rw [connect]
    split <;> rfl

end SdpScan

/-- In front of the first audio section every `c=` line counts as that of the session. -/
theorem scanSdp_before {st : SdpScan} (hin : st.inMediaSection = false) {before : List MediaSection}
    (hbefore : ∀ s ∈ before, ¬ s.IsAudio) (rest : List (List Char)) :
    scanSdp st (before.flatMap MediaSection.lines ++ rest) =
      scanSdp (st.connect (lastConnection before)) rest := by
  induction before generalizing st with
  | nil => rfl
  | cons s before ih =>
    obtain ⟨hs, hbefore⟩ := List.forall_mem_cons.mp hbefore
    have hrest := ih ((st.connect_inMediaSection s.part.connection).trans hin) hbefore
    rw [List.flatMap_cons, List.append_assoc, s.scanSdp_lines, if_neg hs, if_neg (by simp [hin]), hrest,
      SdpScan.connect_connect, lastConnection_cons]

/-- Behind it the scan goes on as long as the kinds begin as audio does. -/
theorem scanSdp_after {st : SdpScan} (hin : st.inMediaSection = true) (after : List MediaSection) :
    scanSdp st (after.flatMap MediaSection.lines ++ [[]]) =
      ((lastAudio (after.takeWhile MediaSection.LikeAudio)).elim st st.enter).connect
        (lastConnection (after.takeWhile MediaSection.LikeAudio)) := by
  induction after generalizing st with
  | nil => rfl
  | cons s after ih =>
    rw [List.flatMap_cons, List.append_assoc, s.scanSdp_lines, List.takeWhile_cons]
    by_cases his : s.IsAudio
    · have hrest := ih (((st.enter s).connect_inMediaSection s.part.connection).trans rfl)
      rw [if_pos his, if_pos (MediaSection.likeAudio_of_isAudio his), hrest, lastConnection_cons,
        lastAudio_cons, if_pos his, ← SdpScan.connect_connect]
      congr 1
      -- the last audio section is `s` if none follows it
      match lastAudio (after.takeWhile MediaSection.LikeAudio) with
      | none => rfl
      | some a => exact SdpScan.enter_connect rfl s.part.connection a
    · rw [if_neg his]
      match hlike : s.LikeAudio with
      | false =>
        rw [if_pos ⟨hin, rfl⟩]
        rfl
      | true =>
        have hrest := ih ((st.connect_inMediaSection s.part.connection).trans hin)
        rw [if_neg (by simp), if_pos rfl, hrest, lastConnection_cons, lastAudio_cons, if_neg his,
          ← SdpScan.connect_connect]
        congr 1
        match lastAudio (after.takeWhile MediaSection.LikeAudio) with
        | none => rfl
        | some a => exact SdpScan.enter_connect hin s.part.connection a

/-! ### What is read -/

namespace SdpBody

/-- The sections behind the first audio section that are read as audio too. -/
def run (b : SdpBody) : List MediaSection := b.after.takeWhile MediaSection.LikeAudio

/-- What the parser returns: the last of the audio sections it reads, and the last `c=` line. -/
theorem parseSdp_text (b : SdpBody) (lineEnd : LineEnd) :
    parseSdp (b.text lineEnd) =
      { remoteIp :=
          ((lastConnection b.run <|> b.audio.part.connection <|> lastConnection b.before <|>
            b.session.connection).map fun c => String.ofList c.address).getD ""
        remotePort := some ((lastAudio b.run).getD b.audio).port
        payloadTypes := ((lastAudio b.run).getD b.audio).payloadTypes } := by
  -- The scan stops at the first section that is not of the run.
  have hscan : scanSdp ⟨some 0, [], [], [], false⟩ (splitLines [] (b.text lineEnd).toList) =
      ⟨some ((lastAudio b.run).getD b.audio).port, ((lastAudio b.run).getD b.audio).payloadTypes,
        ((lastConnection b.before <|> b.session.connection).map Connection.address).getD [],
        ((lastConnection b.run <|> b.audio.part.connection).map Connection.address).getD [], true⟩ := by
    rw [b.splitLines_text, lines, sections, List.append_assoc, scanSdp_part, List.flatMap_append,
      List.append_assoc, scanSdp_before, List.flatMap_cons, List.append_assoc, b.audio.scanSdp_lines,
      if_pos b.is_audio, scanSdp_after, ← run]
    · match lastAudio b.run, lastConnection b.run, b.audio.part.connection,
        lastConnection b.before, b.session.connection with
      | a, c, d, e, f => cases a <;> cases c <;> cases d <;> cases e <;> cases f <;> rfl
    · exact SdpScan.connect_inMediaSection _ _
    · exact SdpScan.connect_inMediaSection _ _
    · exact b.first
  have hnonempty (c : Connection) : c.address ≠ [] := c.address_ok.1.1
  rw [parseSdp, hscan]
  simp only [SdpMediaInfo.mk.injEq, and_true]
  match lastConnection b.run, b.audio.part.connection, lastConnection b.before,
      b.session.connection with
  | some c, _, _, _ => exact congrArg _ (if_neg (hnonempty c))
  | none, some c, _, _ => exact congrArg _ (if_neg (hnonempty c))
  | none, none, some c, _ => rfl
  | none, none, none, some c => rfl
  | none, none, none, none => rfl

/-- The sections in front of the first audio section and the audio sections behind it do not change
what is read. -/
structure Attributed (b : SdpBody) : Prop where
  later_audio : ∀ s, lastAudio b.run = some s →
    s.port = b.audio.port ∧ s.payloadTypes = b.audio.payloadTypes
  later_connection : ∀ c, lastConnection b.run = some c →
    (b.audio.part.connection <|> b.session.connection).map Connection.address = some c.address
  earlier_connection : lastConnection b.run = none → b.audio.part.connection = none →
    ∀ c, lastConnection b.before = some c →
      b.session.connection.map Connection.address = some c.address

theorem address_eq_iff {c d : Option Connection} :
    (c.map fun c => String.ofList c.address).getD "" =
        (d.map fun c => String.ofList c.address).getD "" ↔
      c.map Connection.address = d.map Connection.address := by
  have hnonempty (c : Connection) : String.ofList c.address ≠ "" := by
    intro h
    exact c.address_ok.1.1 (String.ofList_injective h)
  match c, d with
  | none, none => exact iff_of_true rfl rfl
  | none, some d => exact iff_of_false (hnonempty d).symm nofun
  | some c, none => exact iff_of_false (hnonempty c) nofun
  | some c, some d =>
    rw [Option.map_some, Option.map_some, Option.getD_some, Option.getD_some, Option.map_some,
      Option.map_some, Option.some.injEq]
    exact ⟨fun h => String.ofList_injective h, fun h => congrArg _ h⟩

/-- Which `c=` line counts: the last one of the audio sections read, else the last one in front. -/
theorem address_attributed_iff (later own earlier session : Option Connection) :
    (later <|> own <|> earlier <|> session).map Connection.address =
        (own <|> session).map Connection.address ↔
      (∀ c, later = some c → (own <|> session).map Connection.address = some c.address) ∧
        (later = none → own = none → ∀ c, earlier = some c →
          session.map Connection.address = some c.address) := by
  match later, own, earlier with
  | some c, _, _ => simp [eq_comm]
  | none, some c, _ => simp
  | none, none, some c => simp [eq_comm]
  | none, none, none => simp

/-- The parser returns the port, the payload types and the address of the first audio section exactly
for these bodies. -/
theorem parseSdp_text_iff (b : SdpBody) (lineEnd : LineEnd) :
    parseSdp (b.text lineEnd) = b.endpoint ↔ b.Attributed := by
  rw [parseSdp_text, endpoint, SdpMediaInfo.mk.injEq, Option.some.injEq, Int.natCast_inj,
    address_eq_iff, address_attributed_iff]
  constructor
  · rintro ⟨⟨hlater, hearlier⟩, hport, htypes⟩
    refine ⟨fun s hs => ?_, hlater, hearlier⟩
    rw [hs] at hport htypes
    exact ⟨hport, htypes⟩
  · rintro ⟨haudio, hlater, hearlier⟩
    refine ⟨⟨hlater, hearlier⟩, ?_⟩
    match hlast : lastAudio b.run with
    | none => exact ⟨rfl, rfl⟩
    | some s => exact haudio s hlast

end SdpBody

/-! ### The answer -/

/-- The options of `buildSdpAnswer`: an address, a port and the number of the session. -/
structure SdpAnswer where
  localIp : String
  localPort : ℕ
  sessionId : String
  localIp_ok : Solid localIp.toList ∧ '/' ∉ localIp.toList
  sessionId_ok : '\r' ∉ sessionId.toList ∧ '\n' ∉ sessionId.toList

namespace SdpAnswer

/-- The `o=` line behind its type. -/
def origin (o : SdpAnswer) : List Char :=
  "- ".toList ++ (o.sessionId.toList ++ ' ' ::
    (o.sessionId.toList ++ (" IN IP4 ".toList ++ o.localIp.toList)))

/-- The answer as a body with one media section. -/
def body (o : SdpAnswer) : SdpBody where
  session :=
    { before :=
        [⟨"v=0".toList, by decide +kernel, by decide +kernel, by decide +kernel⟩,
          { text := 'o' :: '=' :: o.origin
            no_break := by
              obtain ⟨hcr, hlf⟩ := o.sessionId_ok
              obtain ⟨hcr', hlf'⟩ := o.localIp_ok.1.no_break
              simp [origin, hcr, hlf, hcr', hlf']
            not_connection := rfl
            not_media := rfl },
          ⟨"s=voice-agent".toList, by decide +kernel, by decide +kernel, by decide +kernel⟩]
      connection := some ⟨false, o.localIp.toList, none, o.localIp_ok, nofun⟩
      after := [⟨"t=0 0".toList, by decide +kernel, by decide +kernel, by decide +kernel⟩] }
  before := []
  audio :=
    { kind := ['a', 'u', 'd', 'i', 'o']
      port := o.localPort
      portCount := none
      protocol := "RTP/AVP".toList
      formats := [.payloadType 0]
      part :=
        { before :=
            [⟨"a=rtpmap:0 PCMU/8000".toList, by decide +kernel, by decide +kernel, by decide +kernel⟩,
              ⟨"a=ptime:20".toList, by decide +kernel, by decide +kernel, by decide +kernel⟩,
              ⟨"a=sendrecv".toList, by decide +kernel, by decide +kernel, by decide +kernel⟩]
          connection := none
          after := [] }
      kind_ok := by decide +kernel
      protocol_ok := by decide +kernel }
  after := []
  is_audio := rfl
  first := nofun

/-- The text of the answer is that of the body. -/
theorem text_body (o : SdpAnswer) :
    o.body.text .crlf = buildSdpAnswer o.localIp o.localPort o.sessionId := by
  rw [← String.toList_inj, SdpBody.text, String.toList_ofList, buildSdpAnswer,
    String.toList_intercalate]
  have hzero : Nat.toDigits 10 0 = ['0'] := rfl
  simp [SdpBody.lines, SdpBody.sections, body, Part.lines, MediaSection.lines,
    MediaSection.mediaLine, MediaSection.fields, origin, Connection.text, Format.text,
    LineEnd.chars, List.intercalate_cons_cons, hzero]

/-- The own answer is read back. -/
theorem parseSdp_buildSdpAnswer (o : SdpAnswer) :
    parseSdp (buildSdpAnswer o.localIp o.localPort o.sessionId) =
      ⟨o.localIp, some o.localPort, [.finite 0]⟩ := by
  have hattributed : o.body.Attributed := ⟨nofun, nofun, fun _ _ => nofun⟩
  have hread := (o.body.parseSdp_text_iff .crlf).mpr hattributed
  rw [o.text_body] at hread
  rw [hread, SdpBody.endpoint]
  simp [body, MediaSection.payloadTypes, Format.payloadType?]

end SdpAnswer

/-! ### Attribution -/

/-- **Attribution.** Of an offer the parser returns the port, the payload types and the address of the
first audio section exactly if the other sections leave them alone; the own answer is read back. -/
theorem parseSdp_iff (b : SdpBody) (lineEnd : LineEnd) (o : SdpAnswer) :
    (parseSdp (b.text lineEnd) = b.endpoint ↔ b.Attributed) ∧
      parseSdp (buildSdpAnswer o.localIp o.localPort o.sessionId) =
        ⟨o.localIp, some o.localPort, [.finite 0]⟩ :=
  ⟨b.parseSdp_text_iff lineEnd, o.parseSdp_buildSdpAnswer⟩

/-- An offer with a video section in front of the audio section. -/
def videoFirst : SdpBody where
  session := ⟨[], some ⟨false, "192.0.2.1".toList, none, by decide +kernel, nofun⟩, []⟩
  before :=
    [{ kind := "video".toList
       port := 6000
       portCount := none
       protocol := "RTP/AVP".toList
       formats := [.payloadType 31]
       part := ⟨[], some ⟨false, "192.0.2.2".toList, some "127".toList, by decide +kernel, by
         rintro s ⟨⟩
         decide +kernel⟩, []⟩
       kind_ok := by decide +kernel
       protocol_ok := by decide +kernel }]
  audio :=
    { kind := ['a', 'u', 'd', 'i', 'o']
      port := 4000
      portCount := none
      protocol := "RTP/AVP".toList
      formats := [.payloadType 0]
      part := ⟨[], none, []⟩
      kind_ok := by decide +kernel
      protocol_ok := by decide +kernel }
  after := []
  is_audio := rfl
  first := by decide +kernel

/-- The audio is sent to the address of the video. -/
theorem videoFirst_misread :
    parseSdp (videoFirst.text .crlf) = ⟨"192.0.2.2", some 4000, [.finite 0]⟩ ∧
      videoFirst.endpoint = ⟨"192.0.2.1", some 4000, [.finite 0]⟩ := by
  constructor
  · decide +kernel
  · decide +kernel

end VoiceServer
