import VoiceAgentPlatform.Lib.Json

/-!
# Query strings

Parameters written one behind the other, each with its name and its value percent-encoded, and read
again.

* `quote`: a text percent-encoded, with only the unreserved characters as they are.
* `write`, `parse`: the parameters as a query string, and back; `parse_write` says that nothing is lost.
-/

namespace UrlQuery

/-- The characters that are never encoded. -/
def isUnreserved (c : Char) : Bool := c.isAlphanum || c = '_' || c = '.' || c = '-' || c = '~'

/-- A text of unreserved characters. -/
def Unreserved (s : List Char) : Prop := ∀ c ∈ s, isUnreserved c = true

instance (s : List Char) : Decidable (Unreserved s) :=
  decidable_of_iff (s.all isUnreserved = true) List.all_eq_true

/-- A hexadecimal digit. -/
def hexDigit (n : ℕ) : Char := "0123456789ABCDEF".toList.getD n '0'

/-- A byte as it is written. -/
def quoteByte (b : UInt8) : List Char :=
  if isUnreserved (Char.ofNat b.toNat) then [Char.ofNat b.toNat]
  else ['%', hexDigit (b.toNat / 16), hexDigit (b.toNat % 16)]

/-- `urllib.parse.quote(s, safe="")`: the bytes of the UTF-8 text. -/
def quote (s : List Char) : List Char := (s.flatMap String.utf8EncodeChar).flatMap quoteByte

/-- The bytes of a percent-encoded text. -/
def unquoteBytes : List Char → Option (List UInt8)
  | [] => some []
  | c :: s =>
    if c = '%' then
      match s with
      | a :: b :: s => do
        let high ← Json.hexValue? a
        let low ← Json.hexValue? b
        let bytes ← unquoteBytes s
        return UInt8.ofNat (16 * high + low) :: bytes
      | _ => none
    else if c.toNat < 128 then (unquoteBytes s).map (UInt8.ofNat c.toNat :: ·)
    else none

/-- The text that is percent-encoded. -/
def unquote (s : List Char) : Option String :=
  (unquoteBytes s).bind fun bytes => String.fromUTF8? bytes.toByteArray

/-- A parameter as it is written. -/
def written (p : String × String) : List Char := quote p.1.toList ++ '=' :: quote p.2.toList

/-- Parameters as a query string. -/
def write (ps : List (String × String)) : List Char := List.intercalate ['&'] (ps.map written)

/-- One parameter: its name goes up to the first equals sign. -/
def parseParam (s : List Char) : Option (String × String) := do
  let name ← unquote (s.takeWhile (· ≠ '='))
  let value ← unquote ((s.dropWhile (· ≠ '=')).drop 1)
  return (name, value)

/-- The parameters of a query string. -/
def parse (s : List Char) : Option (List (String × String)) := (s.splitOn '&').mapM parseParam

/-! ### Encoding -/

@[simp] theorem quote_nil : quote [] = [] := rfl

theorem quote_cons (c : Char) (s : List Char) :
    quote (c :: s) = (String.utf8EncodeChar c).flatMap quoteByte ++ quote s := by
  rw [quote, List.flatMap_cons, List.flatMap_append, ← quote]

theorem quote_append (s t : List Char) : quote (s ++ t) = quote s ++ quote t := by
  rw [quote, List.flatMap_append, List.flatMap_append, ← quote, ← quote]

/-- Letters and digits are ASCII characters. -/
theorem isAlphanum_lt {c : Char} (h : c.isAlphanum = true) : c.toNat < 128 := by
  have hle {last : Char} (hlast : c.val ≤ last.val) (hascii : last.val.toNat < 128) : c.toNat < 128 :=
    (UInt32.le_iff_toNat_le.mp hlast).trans_lt hascii
  rcases (Bool.or_eq_true _ _).mp h with hletter | hdigit
  · rcases (Bool.or_eq_true _ _).mp hletter with hupper | hlower
    · exact hle (of_decide_eq_true hupper).2 (by decide)
    · exact hle (of_decide_eq_true ((Bool.and_eq_true _ _).mp hlower).2) (by decide)
  · exact Nat.lt_of_le_of_lt (Char.isDigit_iff_toNat.mp hdigit).2 (by decide)

theorem isUnreserved_lt {c : Char} (h : isUnreserved c = true) : c.toNat < 128 := by
  simp only [isUnreserved, Bool.or_eq_true, decide_eq_true_eq] at h
  rcases h with (((h | rfl) | rfl) | rfl) | rfl
  · exact isAlphanum_lt h
  all_goals decide

/-- The UTF-8 text of an ASCII character is one byte. -/
theorem utf8EncodeChar_of_lt {c : Char} (h : c.toNat < 128) :
    String.utf8EncodeChar c = [UInt8.ofNat c.toNat] := by
  have hsize : c.utf8Size = 1 := Char.utf8Size_eq_one_iff.mpr (by
    rw [UInt32.le_iff_toNat_le]
    exact Nat.le_of_lt_succ h)
  rw [String.utf8EncodeChar_eq_singleton hsize]
  rfl

theorem ofNat_toNat_ofNat {c : Char} (h : c.toNat < 128) :
    Char.ofNat (UInt8.ofNat c.toNat).toNat = c := by
  rw [UInt8.toNat_ofNat', Nat.mod_eq_of_lt (by omega), Char.ofNat_toNat]

/-- Unreserved characters stay as they are. -/
theorem quote_of_unreserved {s : List Char} (h : Unreserved s) : quote s = s := by
  induction s with
  | nil => rfl
  | cons c s ih =>
    have hc := h c List.mem_cons_self
    have hlt := isUnreserved_lt hc
    rw [quote_cons, ih fun d hd => h d (List.mem_cons_of_mem _ hd), utf8EncodeChar_of_lt hlt,
      List.flatMap_singleton, quoteByte, ofNat_toNat_ofNat hlt, if_pos hc]
    rfl

theorem Unreserved.append {s t : List Char} (hs : Unreserved s) (ht : Unreserved t) : Unreserved (s ++ t) :=
  fun c hc => (List.mem_append.mp hc).elim (hs c) (ht c)

/-- A parameter of unreserved characters is written as it is. -/
theorem written_of_unreserved {name value : String} (hname : Unreserved name.toList)
    (hvalue : Unreserved value.toList) : written (name, value) = name.toList ++ '=' :: value.toList := by
  rw [written, quote_of_unreserved hname, quote_of_unreserved hvalue]

/-- What a byte is written with. -/
theorem of_mem_quoteByte {b : UInt8} {c : Char} (h : c ∈ quoteByte b) :
    isUnreserved c = true ∨ c = '%' := by
  have hhex : ∀ n : Fin 16, isUnreserved (hexDigit n.val) = true := by decide
  have hb : b.toNat < 256 := UInt8.toNat_lt b
  rw [quoteByte] at h
  split_ifs at h with hc
  · rw [List.mem_singleton.mp h]
    exact Or.inl hc
  · simp only [List.mem_cons, List.not_mem_nil, or_false] at h
    rcases h with rfl | rfl | rfl
    · exact Or.inr rfl
    · exact Or.inl (hhex ⟨b.toNat / 16, by omega⟩)
    · exact Or.inl (hhex ⟨b.toNat % 16, by omega⟩)

theorem of_mem_quote {s : List Char} {c : Char} (h : c ∈ quote s) :
    isUnreserved c = true ∨ c = '%' := by
  obtain ⟨b, -, hb⟩ := List.mem_flatMap.mp h
  exact of_mem_quoteByte hb

theorem notMem_quote {s : List Char} {c : Char} (hc : isUnreserved c = false) (hpercent : c ≠ '%') :
    c ∉ quote s := by
  intro h
  rcases of_mem_quote h with htrue | heq
  · rw [hc] at htrue
    cases htrue
  · exact hpercent heq

/-! ### Decoding -/

theorem hexValue?_hexDigit {n : ℕ} (h : n < 16) : Json.hexValue? (hexDigit n) = some n := by
  have hall : ∀ n : Fin 16, Json.hexValue? (hexDigit n.val) = some n.val := by decide
  exact hall ⟨n, h⟩

/-- A byte is read back. -/
theorem unquoteBytes_quoteByte (b : UInt8) (rest : List Char) :
    unquoteBytes (quoteByte b ++ rest) = (unquoteBytes rest).map (b :: ·) := by
  have hb : b.toNat < 256 := UInt8.toNat_lt b
  rw [quoteByte]
  split_ifs with hc
  · have hlt := isUnreserved_lt hc
    -- An unreserved byte stands for itself, and is not the sign of an escape.
    have hne : Char.ofNat b.toNat ≠ '%' := by
      intro heq
      rw [heq] at hc
      cases hc
    have hvalid : b.toNat.isValidChar := Or.inl (by omega)
    have hback : (Char.ofNat b.toNat).toNat = b.toNat := by
      rw [Char.ofNat, dif_pos hvalid]
      rfl
    rw [hback] at hlt
    rw [List.cons_append, List.nil_append, unquoteBytes.eq_def]
    simp only [if_neg hne, hback, if_pos hlt, UInt8.ofNat_toNat]
  · -- The two digits are those of the byte.
    have hvalue : 16 * (b.toNat / 16) + b.toNat % 16 = b.toNat := by omega
    rw [List.cons_append, List.cons_append, List.cons_append, List.nil_append, unquoteBytes, if_pos rfl]
    simp only [hexValue?_hexDigit (show b.toNat / 16 < 16 by omega),
      hexValue?_hexDigit (show b.toNat % 16 < 16 by omega), Option.bind_eq_bind, Option.bind_some, hvalue,
      UInt8.ofNat_toNat]
    cases unquoteBytes rest with
    | none => rfl
    | some bytes => rfl

theorem unquoteBytes_quote (bytes : List UInt8) : unquoteBytes (bytes.flatMap quoteByte) = some bytes := by
  induction bytes with
  | nil => rw [List.flatMap_nil, unquoteBytes]
  | cons b bytes ih =>
    rw [List.flatMap_cons, unquoteBytes_quoteByte, ih]
    rfl

/-- A text is read back. -/
theorem unquote_quote (s : String) : unquote (quote s.toList) = some s := by
  have hbytes : (s.toList.flatMap String.utf8EncodeChar).toByteArray = s.toUTF8 := by
    rw [String.toUTF8_eq_toByteArray, ← String.utf8Encode_toList]
    rfl
  rw [unquote, quote, unquoteBytes_quote, Option.bind_some, hbytes, Json.fromUTF8?_toUTF8]

/-- A parameter is read back. -/
theorem parseParam_written (p : String × String) : parseParam (written p) = some p := by
  have hname : ∀ c ∈ quote p.1.toList, decide (c ≠ '=') = true := by
    rintro c hc
    refine decide_eq_true fun heq => ?_
    subst heq
    exact notMem_quote (by decide) (by decide) hc
  have htake : (written p).takeWhile (· ≠ '=') = quote p.1.toList := by
    rw [written, List.takeWhile_append_of_pos hname]
    simp
  have hdrop : ((written p).dropWhile (· ≠ '=')).drop 1 = quote p.2.toList := by
    rw [written, List.dropWhile_append_of_pos hname]
    simp
  rw [parseParam, htake, hdrop, unquote_quote, unquote_quote]
  rfl

theorem amp_notMem_written (p : String × String) : '&' ∉ written p := by
  rw [written, List.mem_append, List.mem_cons]
  rintro (h | h | h)
  · exact notMem_quote (by decide) (by decide) h
  · exact absurd h (by decide)
  · exact notMem_quote (by decide) (by decide) h

@[simp] theorem write_singleton (p : String × String) : write [p] = written p := by
  rw [write, List.map_singleton, List.intercalate_singleton]

theorem splitOn_write {p : String × String} {ps : List (String × String)} :
    (write (p :: ps)).splitOn '&' = (p :: ps).map written := by
  induction ps generalizing p with
  | nil =>
    rw [write_singleton]
    exact List.splitOn_eq_singleton (amp_notMem_written p)
  | cons q ps ih =>
    have hstep : write (p :: q :: ps) = written p ++ '&' :: write (q :: ps) := by
      rw [write, List.map_cons, List.map_cons, List.intercalate_cons_cons, ← List.map_cons, ← write,
        List.append_assoc]
      rfl
    rw [hstep, List.splitOn_append_cons_self, ih, List.splitOn_eq_singleton (amp_notMem_written p)]
    rfl

/-- Parameters are read back. -/
theorem parse_write (p : String × String) (ps : List (String × String)) :
    parse (write (p :: ps)) = some (p :: ps) := by
  rw [parse, splitOn_write]
  have hall : ∀ ps : List (String × String), (ps.map written).mapM parseParam = some ps := by
    intro ps
    induction ps with
    | nil => rfl
    | cons q ps ih => rw [List.map_cons, List.mapM_cons, parseParam_written, ih]; rfl
  exact hall _

/-- The parameters behind the first stand behind an ampersand each. -/
theorem write_cons (p : String × String) (ps : List (String × String)) :
    write (p :: ps) = written p ++ ps.flatMap fun q => '&' :: written q := by
  induction ps generalizing p with
  | nil => rw [write_singleton, List.flatMap_nil, List.append_nil]
  | cons q ps ih =>
    rw [List.flatMap_cons, List.cons_append, ← ih q, write, List.map_cons, List.map_cons,
      List.intercalate_cons_cons, ← List.map_cons, ← write, List.append_assoc]
    rfl

end UrlQuery
