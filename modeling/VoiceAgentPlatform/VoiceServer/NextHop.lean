import VoiceAgentPlatform.VoiceServer.RouteSet

/-!
# The host and port of an address

What `extractHostPortFromUri` reads of a URI, and of a name-addr that it is given as a whole: it takes
the angle brackets off only if they are the first and the last character.

* `extractHostPortFromUri_text`: of a URI it reads the host and the port.
* `Readable`: the name-addrs that lead to the host and port of their URI, from a given source.
* `hopOf_eq_iff`: they do, and no others.
-/

namespace VoiceServer

open JsText

/-! ### The steps of the reader -/

/-- The angle brackets are taken off. -/
def unbracket (s : List Char) : List Char :=
  if startsWith ['<'] s && s.getLast? = some '>' then (s.drop 1).dropLast else s

/-- The user is taken off. -/
def dropUser (s : List Char) : List Char := (indexOf ['@'] s).elim s fun atIdx => s.drop (atIdx + 1)

/-- Parameters and headers are taken off. -/
def cutParams (s : List Char) : List Char := s.takeWhile fun c => !(c = ';' || c = '?')

/-- What is left is host and port. -/
def readHostPort (s : List Char) : Option (String × ℤ) :=
  if s = [] then none
  else
    let hostPort : Option (List Char × List Char) :=
      if startsWith ['['] s then
        (indexOf [']'] s).map fun close =>
          ((s.take close).drop 1, if s[close + 1]? = some ':' then s.drop (close + 2) else [])
      else
        match lastIndexOf ':' s with
        | some colonIdx => some (s.take colonIdx, s.drop (colonIdx + 1))
        | none => some (s, [])
    match hostPort with
    | none => none
    | some (host, portStr) =>
      match if portStr = [] then some 5060 else parseInt10 portStr with
      | none => none
      | some port => if host = [] then none else some (String.ofList host, port)

theorem extractHostPortFromUri_eq (uri : String) :
    extractHostPortFromUri uri =
      readHostPort (cutParams (dropUser (dropSipScheme (unbracket (trim uri.toList))))) := by
  unfold extractHostPortFromUri cutParams dropUser unbracket
  dsimp only
  generalize List.takeWhile _ _ = s
  rfl

/-- The scheme of a URI is taken off. -/
theorem SipUri.dropSipScheme_text (uri : SipUri) :
    dropSipScheme uri.text = uri.userText ++ (uri.hostPort ++ uri.rest) := by
  have hlength : (toLower uri.scheme).length = uri.scheme.length := List.length_map ..
  have hdrop (n : ℕ) (hn : n = uri.scheme.length + 1) :
      uri.text.drop n = uri.userText ++ (uri.hostPort ++ uri.rest) := by
    rw [hn, ← List.drop_drop, SipUri.text, List.drop_left]
    rfl
  have hlower : toLower uri.text =
      toLower uri.scheme ++ ':' :: toLower (uri.userText ++ (uri.hostPort ++ uri.rest)) := by
    rw [SipUri.text, toLower_append]
    rfl
  unfold dropSipScheme
  rw [hlower]
  -- Either scheme, in any case.
  rcases uri.scheme_ok with h | h
  · rw [h] at hlength ⊢
    rw [if_pos (by simp [startsWith])]
    exact hdrop 4 (by rw [← hlength]; rfl)
  · rw [h] at hlength ⊢
    rw [if_neg (by simp [startsWith]), if_pos (by simp [startsWith])]
    exact hdrop 5 (by rw [← hlength]; rfl)

/-- The user of a URI is taken off, whatever follows the URI, as long as no `@` does. -/
theorem SipUri.dropUser_append (uri : SipUri) {tail : List Char} (htail : '@' ∉ tail) :
    dropUser (uri.userText ++ (uri.hostPort ++ (uri.rest ++ tail))) =
      uri.hostPort ++ (uri.rest ++ tail) := by
  have hhost : '@' ∉ uri.hostPort := fun h => (uri.uriChar_hostPort h).ne_at rfl
  have hrest : '@' ∉ uri.rest := fun h => (uri.rest_chars _ h).ne_at rfl
  unfold dropUser SipUri.userText
  cases huser : uri.user with
  | none =>
    rw [List.nil_append, indexOf_eq_none]
    · rfl
    · simp [hhost, hrest, htail]
  | some u =>
    have hu : '@' ∉ u := fun h => (uri.user_ok u huser _ h).ne_at rfl
    simp only [List.append_assoc, List.singleton_append]
    rw [indexOf_append hu, Option.elim_some, ← List.drop_drop, List.drop_left]
    rfl

theorem cutParams_append {s : List Char} (hs : ∀ c ∈ s, c ≠ ';' ∧ c ≠ '?') (t : List Char) :
    cutParams (s ++ t) = s ++ cutParams t := by
  refine List.takeWhile_append_of_pos fun c hc => ?_
  simpa using hs c hc

/-- Host and port hold no separator of parameters or headers. -/
theorem SipUri.hostPort_chars (uri : SipUri) {c : Char} (h : c ∈ uri.hostPort) : c ≠ ';' ∧ c ≠ '?' := by
  -- The port is written in digits.
  have hport (h : c ∈ portText uri.port) : c ≠ ';' ∧ c ≠ '?' := by
    cases hp : uri.port with
    | none =>
      rw [hp] at h
      exact absurd h List.not_mem_nil
    | some p =>
      rw [hp] at h
      rcases List.mem_cons.mp h with rfl | h
      · decide
      · have hdigit := isDigit_of_mem_toDigits h
        constructor
        · rintro rfl
          exact absurd hdigit (by decide)
        · rintro rfl
          exact absurd hdigit (by decide)
  have hok := uri.host_ok
  rcases List.mem_append.mp h with h | h
  · cases hhost : uri.host with
    | name chars =>
      rw [hhost] at hok h
      exact ⟨(hok.2 c h).2.2.1, (hok.2 c h).2.2.2.1⟩
    | ipv6 chars =>
      rw [hhost] at hok h
      rcases List.mem_cons.mp h with rfl | h
      · decide
      · rcases List.mem_append.mp h with h | h
        · exact (hok.2 c h).2.2
        · rw [List.mem_singleton.mp h]
          decide
  · exact hport h

/-- Behind the host and port, parameters and headers are cut off. -/
theorem SipUri.cutParams_hostPort (uri : SipUri) (tail : List Char) :
    cutParams (uri.hostPort ++ (uri.rest ++ tail)) =
      uri.hostPort ++ if uri.rest = [] then cutParams tail else [] := by
  rw [cutParams_append fun c hc => uri.hostPort_chars hc]
  cases hrest : uri.rest with
  | nil => simp
  | cons c rest =>
    have hc := uri.rest_ok c (by rw [hrest]; rfl)
    rw [if_neg (List.cons_ne_nil _ _), List.cons_append, cutParams, List.takeWhile_cons_of_neg]
    rcases hc with rfl | rfl
    · decide
    · decide

/-! ### Reading host and port -/

/-- What may be left behind host and port: nothing, or a closing bracket with white space. -/
structure Leftover (tail : List Char) : Prop where
  head : ∀ c, tail.head? = some c → c = '>'
  no_colon : ':' ∉ tail

theorem Leftover.no_digit {tail : List Char} (h : Leftover tail) (c : Char)
    (hc : tail.head? = some c) : digit 10 c = none := by
  rw [h.head c hc]
  decide

theorem readHostPort_of_colon {pre number : List Char} (hpre : pre ≠ []) (hhead : pre.head? ≠ some '[')
    (hnumber : ':' ∉ number) (hne : number ≠ []) :
    readHostPort (pre ++ ':' :: number) =
      (parseInt10 number).map fun port => (String.ofList pre, port) := by
  have hstart : startsWith ['['] (pre ++ ':' :: number) = false := by
    rw [Bool.eq_false_iff, ne_eq, startsWith_singleton, List.head?_append_of_ne_nil _ hpre]
    exact hhead
  have hdrop : (pre ++ ':' :: number).drop (pre.length + 1) = number := by
    rw [← List.drop_drop, List.drop_left]
    rfl
  unfold readHostPort
  rw [if_neg (by simp), hstart, if_neg Bool.false_ne_true, lastIndexOf_append pre hnumber]
  simp only [List.take_left, hdrop, if_neg hne]
  cases parseInt10 number with
  | none => rfl
  | some port => simp only [if_neg hpre, Option.map_some]

/-- A host name with a port. -/
theorem readHostPort_name_port {h : List Char} (hok : (Host.name h).Ok) (p : ℕ) {tail : List Char}
    (htail : Leftover tail) :
    readHostPort (h ++ (portText (some p) ++ tail)) = some (String.ofList h, (p : ℤ)) := by
  have hhead : h.head? ≠ some '[' := fun hc =>
    (hok.2 _ (List.mem_of_mem_head? hc)).2.2.2.2 rfl
  have hnumber : ':' ∉ Nat.toDigits 10 p ++ tail := by
    rw [List.mem_append, not_or]
    exact ⟨fun hc => absurd (isDigit_of_mem_toDigits hc) (by decide), htail.no_colon⟩
  have hne : Nat.toDigits 10 p ++ tail ≠ [] := by simp [Nat.toDigits_ne_nil]
  rw [portText, List.cons_append, readHostPort_of_colon hok.1 hhead hnumber hne,
    parseInt10_toDigits p htail.no_digit]
  rfl

/-- A host name without port, with what is left behind it. -/
theorem readHostPort_name {h : List Char} (hok : (Host.name h).Ok) {tail : List Char}
    (htail : Leftover tail) :
    readHostPort (h ++ tail) = some (String.ofList (h ++ tail), 5060) := by
  have hne : h ++ tail ≠ [] := by simp [hok.1]
  have hstart : startsWith ['['] (h ++ tail) = false := by
    rw [Bool.eq_false_iff, ne_eq, startsWith_singleton, List.head?_append_of_ne_nil _ hok.1]
    exact fun hc => (hok.2 _ (List.mem_of_mem_head? hc)).2.2.2.2 rfl
  have hcolon : ':' ∉ h ++ tail := by
    rw [List.mem_append, not_or]
    exact ⟨fun hc => (hok.2 _ hc).2.1 rfl, htail.no_colon⟩
  unfold readHostPort
  rw [if_neg hne, hstart, if_neg Bool.false_ne_true, lastIndexOf_eq_none hcolon]
  simp only [if_pos, if_neg hne]

/-- An IPv6 host, with or without port. -/
theorem readHostPort_ipv6 {h : List Char} (hok : (Host.ipv6 h).Ok) (port : Option ℕ)
    {tail : List Char} (htail : Leftover tail) :
    readHostPort ((Host.ipv6 h).text ++ (portText port ++ tail)) =
      some (String.ofList h, ((port.getD 5060 : ℕ) : ℤ)) := by
  have hne : h ≠ [] := List.ne_nil_of_mem hok.1
  have htext : (Host.ipv6 h).text ++ (portText port ++ tail) =
      ('[' :: h) ++ ']' :: (portText port ++ tail) := by
    simp [Host.text]
  -- The bracket that closes is the first one.
  have hclose : ']' ∉ '[' :: h := by
    rw [List.mem_cons, not_or]
    exact ⟨by decide, fun hc => (hok.2 _ hc).2.1 rfl⟩
  have hget : (('[' :: h) ++ ']' :: (portText port ++ tail))[('[' :: h).length + 1]? =
      (portText port ++ tail).head? := by
    rw [List.getElem?_append_right (by omega), Nat.add_sub_cancel_left, List.getElem?_cons_succ,
      List.head?_eq_getElem?]
  have hdrop : (('[' :: h) ++ ']' :: (portText port ++ tail)).drop (('[' :: h).length + 2) =
      (portText port ++ tail).drop 1 := by
    rw [← List.drop_drop, List.drop_left]
    rfl
  rw [htext]
  unfold readHostPort
  rw [if_neg (by simp), if_pos (by simp [startsWith]), indexOf_append hclose, Option.map_some]
  simp only [List.take_left, hget, hdrop, List.drop_one, List.tail_cons]
  cases port with
  | none =>
    have hhead : (portText none ++ tail).head? ≠ some ':' := fun hc =>
      absurd (htail.head ':' hc) (by decide)
    simp only [if_neg hhead, if_true, if_neg hne]
    rfl
  | some p =>
    have hdigits : Nat.toDigits 10 p ++ tail ≠ [] := by simp [Nat.toDigits_ne_nil]
    simp only [portText, List.cons_append, List.head?_cons, if_true, List.tail_cons, if_neg hdigits,
      parseInt10_toDigits p htail.no_digit, if_neg hne, Option.getD_some]

/-- The host and the port of a URI are read. -/
theorem SipUri.readHostPort_hostPort (uri : SipUri) {tail : List Char} (htail : Leftover tail)
    (h : tail = [] ∨ uri.port.isSome ∨ ∃ chars, uri.host = .ipv6 chars) :
    readHostPort (uri.hostPort ++ tail) = some uri.address := by
  have hok := uri.host_ok
  rw [SipUri.hostPort, List.append_assoc, SipUri.address]
  cases hhost : uri.host with
  | ipv6 chars =>
    rw [hhost] at hok
    rw [readHostPort_ipv6 hok _ htail]
    cases uri.port with
    | none => rfl
    | some p => rfl
  | name chars =>
    rw [hhost] at hok
    cases hport : uri.port with
    | some p => exact readHostPort_name_port hok p htail
    | none =>
      -- A name without a port is read up to the end, so nothing may be behind it.
      rcases h with rfl | h | ⟨chars', h⟩
      · have hread := readHostPort_name hok htail
        rw [List.append_nil] at hread
        simpa [portText, Host.text, Host.chars] using hread
      · rw [hport] at h
        cases h
      · rw [hhost] at h
        cases h

/-- The host and the port of a URI are read. -/
theorem extractHostPortFromUri_text (uri : SipUri) :
    extractHostPortFromUri (String.ofList uri.text) = some uri.address := by
  have htight : Tight uri.text := by
    refine ⟨fun c hc => (uri.text_chars (List.mem_of_mem_head? hc)).1, fun c hc => ?_⟩
    exact (uri.text_chars (List.mem_of_getLast? hc)).1
  -- There are no angle brackets to take off.
  have hopen : startsWith ['<'] uri.text = false := by
    rw [Bool.eq_false_iff, ne_eq, startsWith_singleton]
    exact fun hc => (uri.text_chars (List.mem_of_mem_head? hc)).2.1 rfl
  have hnone : Leftover [] := ⟨fun c hc => (by cases hc), List.not_mem_nil⟩
  have huser : dropUser (uri.userText ++ (uri.hostPort ++ (uri.rest ++ []))) =
      uri.hostPort ++ (uri.rest ++ []) := uri.dropUser_append List.not_mem_nil
  have hcut := uri.cutParams_hostPort []
  have hread := uri.readHostPort_hostPort hnone (Or.inl rfl)
  rw [List.append_nil] at huser hcut hread
  rw [extractHostPortFromUri_eq, String.toList_ofList, trim_of_tight htight, unbracket, hopen,
    Bool.false_and, if_neg Bool.false_ne_true, uri.dropSipScheme_text, huser, hcut]
  have hempty : (if uri.rest = [] then cutParams [] else []) = ([] : List Char) := by
    split_ifs
    · rfl
    · rfl
  rw [hempty, List.append_nil, hread]

/-! ### Entries with something around the brackets -/

/-- A URI in brackets, and nothing else. -/
def NameAddr.Bare (a : NameAddr) : Prop := a.display = [] ∧ a.params = []

theorem extractHostPortFromUri_bare {a : NameAddr} (h : a.Bare) :
    extractHostPortFromUri (String.ofList a.text) = some a.uri.address := by
  have htext : a.text = '<' :: (a.uri.text ++ ['>']) := by
    rw [NameAddr.text, h.1, h.2]
    rfl
  -- Without a display name and parameters the brackets are taken off.
  have hunbracket : unbracket a.text = a.uri.text := by
    rw [unbracket, htext, if_pos]
    · rw [List.drop_one, List.tail_cons, List.dropLast_concat]
    · simp [startsWith, List.getLast?_cons]
  have htight : Tight a.uri.text := by
    refine ⟨fun c hc => (a.uri.text_chars (List.mem_of_mem_head? hc)).1, fun c hc => ?_⟩
    exact (a.uri.text_chars (List.mem_of_getLast? hc)).1
  have hopen : unbracket a.uri.text = a.uri.text := by
    have hstart : startsWith ['<'] a.uri.text = false := by
      rw [Bool.eq_false_iff, ne_eq, startsWith_singleton]
      exact fun hc => (a.uri.text_chars (List.mem_of_mem_head? hc)).2.1 rfl
    rw [unbracket, hstart, Bool.false_and, if_neg Bool.false_ne_true]
  have huri := extractHostPortFromUri_text a.uri
  rw [extractHostPortFromUri_eq, String.toList_ofList, trim_of_tight htight, hopen] at huri
  rw [extractHostPortFromUri_eq, String.toList_ofList, trim_of_tight a.tight_text, hunbracket, huri]

theorem prefix_of_prefix_append_cons {p s t : List Char} {c : Char} (hc : c ∉ p)
    (h : p <+: s ++ c :: t) : p <+: s := by
  induction p generalizing s with
  | nil => exact List.nil_prefix
  | cons d p ih =>
    obtain ⟨hd, hp⟩ := not_or.mp (mt List.mem_cons.mpr hc)
    cases s with
    | nil => exact absurd (List.cons_prefix_cons.mp h).1.symm hd
    | cons e s =>
      obtain ⟨rfl, hrest⟩ := List.cons_prefix_cons.mp h
      exact List.cons_prefix_cons.mpr ⟨rfl, ih hp hrest⟩

/-- Nothing is taken off in front of a display name without colon. -/
theorem dropSipScheme_of_open {s t : List Char} (hs : ':' ∉ s) :
    dropSipScheme (s ++ '<' :: t) = s ++ '<' :: t := by
  have hlower : toLower (s ++ '<' :: t) = toLower s ++ '<' :: toLower t := toLower_append s _
  have hcolon := colon_notMem_toLower hs
  have hstart (p : List Char) (hmem : ':' ∈ p) (hopen : '<' ∉ p) :
      startsWith p (toLower (s ++ '<' :: t)) = false := by
    rw [Bool.eq_false_iff, ne_eq, startsWith, List.isPrefixOf_iff_prefix, hlower]
    intro hpre
    exact hcolon ((prefix_of_prefix_append_cons hopen hpre).subset hmem)
  rw [dropSipScheme, hstart _ (by decide) (by decide), hstart _ (by decide) (by decide)]
  rfl

theorem SipUri.scheme_not_separator (uri : SipUri) {c : Char} (hc : c ∈ uri.scheme) :
    c ≠ ';' ∧ c ≠ '?' := by
  have hmem : c.toLower ∈ "sips".toList := by
    have hlower : c.toLower ∈ toLower uri.scheme := List.mem_map_of_mem hc
    rcases uri.scheme_ok with h | h
    · rw [h] at hlower
      exact List.mem_append_left ['s'] hlower
    · rwa [h] at hlower
  constructor
  · rintro rfl
    exact absurd hmem (by decide)
  · rintro rfl
    exact absurd hmem (by decide)

/-- What is left of an entry behind host and port once the header parameters are cut off. -/
def NameAddr.leftover (a : NameAddr) : List Char :=
  if a.uri.rest = [] then '>' :: cutParams a.params else []

theorem NameAddr.leftover_ok (a : NameAddr) : Leftover a.leftover := by
  unfold NameAddr.leftover
  split_ifs
  · refine ⟨fun c hc => (Option.some.inj hc).symm, ?_⟩
    rw [List.mem_cons, not_or]
    refine ⟨by decide, fun hc => ?_⟩
    rcases a.params_ok with h | ⟨b, r, hb, h⟩
    · rw [h] at hc
      exact absurd hc List.not_mem_nil
    · -- only white space stands in front of the first `;`
      have hblank : ∀ c ∈ b, c ≠ ';' ∧ c ≠ '?' := fun c hcb => by
        constructor
        · rintro rfl
          exact absurd (hb _ hcb) (by decide)
        · rintro rfl
          exact absurd (hb _ hcb) (by decide)
      rw [h, cutParams_append hblank, cutParams, List.takeWhile_cons_of_neg (by decide),
        List.append_nil] at hc
      exact absurd (hb _ hc) (by decide)
  · exact ⟨fun c hc => (by cases hc), List.not_mem_nil⟩

theorem NameAddr.cutParams_hostPort (a : NameAddr) :
    cutParams (a.uri.hostPort ++ (a.uri.rest ++ '>' :: a.params)) = a.uri.hostPort ++ a.leftover := by
  rw [a.uri.cutParams_hostPort, NameAddr.leftover]
  split_ifs
  · rw [cutParams, List.takeWhile_cons_of_pos (by decide)]
    rfl
  · rfl

section

variable {a : NameAddr}

theorem NameAddr.Plain.notMem_display (h : a.Plain) {c : Char}
    (hc : c ∈ [',', '<', '>', '@', ';', '?', ':', '[']) : c ∉ a.display :=
  fun hmem => h.display c hmem hc

/-- Everything up to the scheme stays where it is. -/
theorem NameAddr.Plain.unbracket_text (h : a.Plain) (hbare : ¬ a.Bare) :
    dropSipScheme (unbracket (trim a.text)) = a.text := by
  have hunbracket : unbracket a.text = a.text := by
    rw [unbracket, if_neg]
    rw [Bool.and_eq_true, startsWith_singleton, decide_eq_true_eq]
    rintro ⟨hhead, hlast⟩
    -- the first character is a bracket without display name, the last one without parameters
    refine hbare ⟨?_, ?_⟩
    · cases hdisplay : a.display with
      | nil => rfl
      | cons c ds =>
        rw [NameAddr.text, hdisplay] at hhead
        obtain rfl := Option.some.inj hhead
        exact absurd (show '<' ∈ a.display by rw [hdisplay]; exact List.mem_cons_self)
          (h.notMem_display (by decide))
    · cases hparams : a.params.getLast? with
      | none => exact List.getLast?_eq_none_iff.mp hparams
      | some c =>
        have htext : a.text = a.display ++ '<' :: a.uri.text ++ ('>' :: a.params) := by
          simp [NameAddr.text]
        rw [htext, List.getLast?_append_of_ne_nil _ (List.cons_ne_nil _ _), List.getLast?_cons,
          hparams] at hlast
        obtain rfl := Option.some.inj hlast
        exact absurd (h.params '>' (List.mem_of_getLast? hparams)) (by decide)
  rw [trim_of_tight a.tight_text, hunbracket, NameAddr.text,
    dropSipScheme_of_open (h.notMem_display (by decide))]

/-- With a user, everything up to the user is taken off. -/
theorem extractHostPortFromUri_user (h : a.Plain) (hbare : ¬ a.Bare) (huser : a.uri.user.isSome) :
    extractHostPortFromUri (String.ofList a.text) = readHostPort (a.uri.hostPort ++ a.leftover) := by
  obtain ⟨u, hu⟩ := Option.isSome_iff_exists.mp huser
  have htext : a.text = (a.display ++ '<' :: (a.uri.scheme ++ ':' :: u)) ++
      '@' :: (a.uri.hostPort ++ (a.uri.rest ++ '>' :: a.params)) := by
    simp [NameAddr.text, SipUri.text, SipUri.userText, hu]
  have hat : '@' ∉ a.display ++ '<' :: (a.uri.scheme ++ ':' :: u) := by
    simp only [List.mem_append, List.mem_cons, not_or]
    exact ⟨h.notMem_display (by decide), by decide, fun hc => (a.uri.scheme_chars _ hc).1.ne_at rfl,
      by decide, fun hc => (a.uri.user_ok u hu _ hc).ne_at rfl⟩
  have hdrop : dropUser a.text = a.uri.hostPort ++ (a.uri.rest ++ '>' :: a.params) := by
    rw [dropUser, htext, indexOf_append hat, Option.elim_some, ← List.drop_drop, List.drop_left]
    rfl
  rw [extractHostPortFromUri_eq, String.toList_ofList, h.unbracket_text hbare, hdrop,
    a.cutParams_hostPort]

/-- Without a user, everything up to the last colon is taken for the host. -/
theorem extractHostPortFromUri_no_user (h : a.Plain) (hbare : ¬ a.Bare) (huser : a.uri.user = none) :
    extractHostPortFromUri (String.ofList a.text) =
      readHostPort ((a.display ++ '<' :: a.uri.scheme) ++ ':' :: (a.uri.hostPort ++ a.leftover)) := by
  have htext : a.text = (a.display ++ '<' :: a.uri.scheme) ++
      ':' :: (a.uri.hostPort ++ (a.uri.rest ++ '>' :: a.params)) := by
    simp [NameAddr.text, SipUri.text, SipUri.userText, huser]
  -- There is no user to drop, and the name before the bracket stays.
  have hat : '@' ∉ a.text := by
    rw [htext]
    simp only [List.mem_append, List.mem_cons, not_or]
    exact ⟨⟨h.notMem_display (by decide), by decide, fun hc => (a.uri.scheme_chars _ hc).1.ne_at rfl⟩,
      by decide, fun hc => (a.uri.uriChar_hostPort hc).ne_at rfl,
      fun hc => (a.uri.rest_chars _ hc).ne_at rfl, by decide,
      fun hc => absurd (h.params _ hc) (by decide)⟩
  have hfront : ∀ c ∈ (a.display ++ '<' :: a.uri.scheme) ++ [':'], c ≠ ';' ∧ c ≠ '?' := by
    intro c hc
    simp only [List.mem_append, List.mem_cons, List.not_mem_nil, or_false] at hc
    rcases hc with (hc | rfl | hc) | rfl
    · have := h.display c hc
      simp only [List.mem_cons, not_or] at this
      exact ⟨this.2.2.2.2.1, this.2.2.2.2.2.1⟩
    · decide
    · exact a.uri.scheme_not_separator hc
    · decide
  have hcut := cutParams_append hfront (a.uri.hostPort ++ (a.uri.rest ++ '>' :: a.params))
  rw [a.cutParams_hostPort] at hcut
  rw [extractHostPortFromUri_eq, String.toList_ofList, h.unbracket_text hbare, dropUser,
    indexOf_eq_none hat, Option.elim_none, htext]
  simpa only [List.append_assoc, List.singleton_append] using congrArg readHostPort hcut

end

/-! ### Which entries lead to the host and port of their URI -/

/-- The last part of a host: all of a name, the last group of an IPv6 address. -/
def Host.lastPart : Host → List Char
  | name h => h
  | ipv6 h => (h.reverse.takeWhile (· ≠ ':')).reverse

/-- No number stands where the reader looks for a port. -/
def SipUri.NoNumber (uri : SipUri) : Prop := uri.port = none ∧ parseInt10 uri.host.lastPart = none

/-- Where a datagram goes: to the address read, or to the source of the INVITE if none was read. -/
def destination (remoteAddress : String) (remotePort : ℕ) : Option (String × ℤ) → String × ℤ
  | none => (remoteAddress, remotePort)
  | some (host, port) => (host, if port = 0 then remotePort else port)

/-- The entry leads to the host and port of its URI: it is a URI in brackets and nothing else; or its
URI has a user, and the host is not followed by the closing bracket; or nothing can be read of it, and
the INVITE came from there. -/
def NameAddr.LeadsHome (a : NameAddr) (remoteAddress : String) (remotePort : ℕ) : Prop :=
  a.Bare ∨
    (a.uri.user.isSome ∧
      (a.uri.rest ≠ [] ∨ a.uri.port.isSome ∨ ∃ chars, a.uri.host = .ipv6 chars)) ∨
    (a.uri.user = none ∧ a.uri.NoNumber ∧ (remoteAddress, (remotePort : ℤ)) = a.uri.address)

theorem destination_address (remoteAddress : String) (remotePort : ℕ) (uri : SipUri) :
    destination remoteAddress remotePort (some uri.address) = uri.address := by
  have hport : uri.address.2 ≠ 0 := by
    rw [SipUri.address]
    cases hp : uri.port with
    | none => exact (by decide : (5060 : ℤ) ≠ 0)
    | some p =>
      have := (uri.port_ok p hp).1
      simp only [Option.getD_some]
      omega
  rw [destination]
  simp only [if_neg hport]

/-- A host that was read with a bracket in it is not the host of a URI. -/
theorem SipUri.address_ne_of_mem (uri : SipUri) {c : Char} (hc : ¬ UriChar c) {host : List Char}
    (hmem : c ∈ host) (port : ℤ) : (String.ofList host, port) ≠ uri.address := by
  intro h
  have hhost := congrArg (fun p : String × ℤ => p.1.toList) h
  simp only [SipUri.address, String.toList_ofList] at hhost
  rw [hhost] at hmem
  have hok := uri.host_ok
  cases hcases : uri.host with
  | name chars =>
    rw [hcases] at hok hmem
    exact hc (hok.2 c hmem).1
  | ipv6 chars =>
    rw [hcases] at hok hmem
    exact hc (hok.2 c hmem).1

/-- An IPv6 address is its last group behind a colon. -/
theorem lastPart_ipv6 {h : List Char} (hcolon : ':' ∈ h) :
    ∃ front, h = front ++ ':' :: (Host.ipv6 h).lastPart ∧ ':' ∉ (Host.ipv6 h).lastPart := by
  obtain ⟨back, front, hreverse, hback⟩ :=
    List.eq_append_cons_of_mem (List.mem_reverse.mpr hcolon)
  have htake : (h.reverse.takeWhile (· ≠ ':')) = back := by
    rw [hreverse, List.takeWhile_append_of_pos, List.takeWhile_cons_of_neg (by decide),
      List.append_nil]
    intro c hc
    rw [decide_eq_true_eq]
    rintro rfl
    exact hback hc
  refine ⟨front.reverse, ?_, ?_⟩
  · rw [Host.lastPart, htake, ← List.reverse_reverse h, hreverse]
    simp
  · rw [Host.lastPart, htake, List.mem_reverse]
    exact hback

section

variable {a : NameAddr} {remoteAddress : String} {remotePort : ℕ}

theorem parseInt10_leftover {s tail : List Char} (htail : Leftover tail) :
    parseInt10 (s ++ tail) = parseInt10 s := by
  cases tail with
  | nil => rw [List.append_nil]
  | cons c tail =>
    rw [htail.head c rfl]
    exact parseInt10_append_stop (by decide) (by decide) (by decide) (by decide) s tail

/-- What is read without a user: a host with the opening bracket in it, or nothing, if no number
stands where a port is looked for. -/
theorem readHostPort_no_user (h : a.Plain) :
    (a.uri.NoNumber → readHostPort ((a.display ++ '<' :: a.uri.scheme) ++
      ':' :: (a.uri.hostPort ++ a.leftover)) = none) ∧
    (¬ a.uri.NoNumber → ∃ host port, '<' ∈ host ∧ readHostPort ((a.display ++ '<' :: a.uri.scheme) ++
      ':' :: (a.uri.hostPort ++ a.leftover)) = some (String.ofList host, port)) := by
  have hfront : (a.display ++ '<' :: a.uri.scheme).head? ≠ some '[' := by
    intro hhead
    cases hdisplay : a.display with
    | nil =>
      rw [hdisplay] at hhead
      exact absurd (Option.some.inj hhead) (by decide)
    | cons c ds =>
      rw [hdisplay] at hhead
      obtain rfl := Option.some.inj hhead
      exact absurd (show '[' ∈ a.display by rw [hdisplay]; exact List.mem_cons_self)
        (h.notMem_display (by decide))
  -- whatever stands in front of the last colon, the host that is read begins with the display name
  have hread (back : List Char) {number : List Char} (hnumber : ':' ∉ number) (hne : number ≠ [])
      (hsplit : (a.display ++ '<' :: a.uri.scheme) ++ ':' :: (a.uri.hostPort ++ a.leftover) =
        ((a.display ++ '<' :: a.uri.scheme) ++ back) ++ ':' :: number)
      (hparse : a.uri.NoNumber ↔ parseInt10 number = none) :
      (a.uri.NoNumber → readHostPort ((a.display ++ '<' :: a.uri.scheme) ++
        ':' :: (a.uri.hostPort ++ a.leftover)) = none) ∧
      (¬ a.uri.NoNumber → ∃ host port, '<' ∈ host ∧
        readHostPort ((a.display ++ '<' :: a.uri.scheme) ++
          ':' :: (a.uri.hostPort ++ a.leftover)) = some (String.ofList host, port)) := by
    rw [hsplit, readHostPort_of_colon (by simp) (by rwa [List.head?_append_of_ne_nil _ (by simp)])
      hnumber hne, hparse]
    cases parseInt10 number with
    | none => exact ⟨fun _ => rfl, fun hno => absurd rfl hno⟩
    | some port => exact ⟨fun hno => (by cases hno), fun _ => ⟨_, port, by simp, rfl⟩⟩
  have hok := a.uri.host_ok
  have hleft := a.leftover_ok
  cases hport : a.uri.port with
  | some p =>
    have hdigits : ':' ∉ Nat.toDigits 10 p ++ a.leftover := by
      rw [List.mem_append, not_or]
      exact ⟨fun hc => absurd (isDigit_of_mem_toDigits hc) (by decide), hleft.no_colon⟩
    refine hread (':' :: a.uri.host.text) hdigits (by simp [Nat.toDigits_ne_nil]) ?_ ?_
    · simp [SipUri.hostPort, hport, portText]
    · rw [parseInt10_toDigits p hleft.no_digit]
      refine iff_of_false (fun hno => ?_) (by simp)
      rw [SipUri.NoNumber, hport] at hno
      cases hno.1
  | none =>
    cases hhost : a.uri.host with
    | name chars =>
      rw [hhost] at hok
      have hcolon : ':' ∉ chars ++ a.leftover := by
        rw [List.mem_append, not_or]
        exact ⟨fun hc => (hok.2 _ hc).2.1 rfl, hleft.no_colon⟩
      refine hread [] hcolon (by simp [hok.1]) ?_ ?_
      · simp [SipUri.hostPort, hport, hhost, portText, Host.text]
      · rw [parseInt10_leftover hleft, SipUri.NoNumber, hport, hhost]
        exact ⟨fun hno => hno.2, fun hno => ⟨rfl, hno⟩⟩
    | ipv6 chars =>
      rw [hhost] at hok
      obtain ⟨front, hfrontEq, hlast⟩ := lastPart_ipv6 hok.1
      have hcolon : ':' ∉ (Host.ipv6 chars).lastPart ++ ']' :: a.leftover := by
        rw [List.mem_append, List.mem_cons, not_or, not_or]
        exact ⟨hlast, by decide, hleft.no_colon⟩
      refine hread (':' :: '[' :: front) hcolon (by simp) ?_ ?_
      · have htext : (Host.ipv6 chars).text =
            '[' :: (front ++ ':' :: ((Host.ipv6 chars).lastPart ++ [']'])) := by
          conv_lhs => rw [Host.text, hfrontEq]
          simp
        simp [SipUri.hostPort, hport, hhost, portText, htext]
      · rw [parseInt10_append_stop (by decide) (by decide) (by decide) (by decide), SipUri.NoNumber,
          hport, hhost]
        exact ⟨fun hno => hno.2, fun hno => ⟨rfl, hno⟩⟩

/-- Where the datagram of an entry goes is the address of its URI exactly for the entries that lead
there. -/
theorem destination_eq_iff (h : a.Plain) :
    destination remoteAddress remotePort (extractHostPortFromUri (String.ofList a.text)) =
      a.uri.address ↔ a.LeadsHome remoteAddress remotePort := by
  by_cases hbare : a.Bare
  · rw [extractHostPortFromUri_bare hbare, destination_address]
    exact iff_of_true rfl (Or.inl hbare)
  have hclose : ¬ UriChar '>' := fun h => h.ne_close rfl
  have hopen : ¬ UriChar '<' := fun h => h.ne_open rfl
  cases huser : a.uri.user with
  | some u =>
    have hsome : a.uri.user.isSome := by rw [huser]; rfl
    rw [extractHostPortFromUri_user h hbare hsome]
    by_cases hhost : a.uri.rest ≠ [] ∨ a.uri.port.isSome ∨ ∃ chars, a.uri.host = .ipv6 chars
    · rw [a.uri.readHostPort_hostPort a.leftover_ok, destination_address]
      · exact iff_of_true rfl (Or.inr (Or.inl ⟨hsome, hhost⟩))
      · rcases hhost with hrest | hhost
        · rw [NameAddr.leftover, if_neg hrest]
          exact Or.inl rfl
        · exact Or.inr hhost
    · -- the closing bracket is read as a part of the host name
      obtain ⟨hrest, hport, hname⟩ : a.uri.rest = [] ∧ a.uri.port = none ∧
          ∀ chars, a.uri.host ≠ .ipv6 chars := by
        simpa [not_or] using hhost
      refine iff_of_false ?_ ?_
      · cases hcases : a.uri.host with
        | ipv6 chars => exact absurd hcases (hname chars)
        | name chars =>
          have hok := a.uri.host_ok
          rw [hcases] at hok
          have hread := readHostPort_name hok a.leftover_ok
          have htext : a.uri.hostPort = chars := by
            rw [SipUri.hostPort, hcases, hport]
            exact List.append_nil chars
          rw [htext, hread, destination]
          refine a.uri.address_ne_of_mem hclose ?_ _
          rw [NameAddr.leftover, if_pos hrest]
          exact List.mem_append_right _ List.mem_cons_self
      · rintro (hb | ⟨-, hh⟩ | ⟨hnone, -⟩)
        · exact hbare hb
        · exact hhost hh
        · rw [huser] at hnone
          cases hnone
  | none =>
    rw [extractHostPortFromUri_no_user h hbare huser]
    obtain ⟨hnothing, hsomething⟩ := readHostPort_no_user h
    by_cases hnumber : a.uri.NoNumber
    · rw [hnothing hnumber, destination]
      constructor
      · exact fun heq => Or.inr (Or.inr ⟨huser, hnumber, heq⟩)
      · rintro (hb | ⟨hsome, -⟩ | ⟨-, -, heq⟩)
        · exact absurd hb hbare
        · rw [huser] at hsome
          cases hsome
        · exact heq
    · obtain ⟨host, port, hmem, hread⟩ := hsomething hnumber
      rw [hread, destination]
      refine iff_of_false (a.uri.address_ne_of_mem hopen hmem _) ?_
      rintro (hb | ⟨hsome, -⟩ | ⟨-, hno, -⟩)
      · exact hbare hb
      · rw [huser] at hsome
        cases hsome
      · exact hnumber hno

end

end VoiceServer
