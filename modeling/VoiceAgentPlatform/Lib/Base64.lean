import Mathlib.Data.Nat.Notation

/-!
# Base64

The URL-safe encoding of bytes as text, and a decoder that skips foreign characters and accepts both
alphabets, as Python's does.

* `encode`, `decode`: the two directions.
* `decode_encode`: decoding inverts encoding.
* `ascii_of_mem_encode`: encoded text is ASCII.
* `encodeStandard`: the encoding in the standard alphabet.
-/

namespace Base64

/-- The URL-safe alphabet. -/
def alphabet : List Char :=
  "ABCDEFGHIJKLMNOPQRSTUVWXYZabcdefghijklmnopqrstuvwxyz0123456789-_".toList

/-- The character of a sextet. -/
def digit (n : ℕ) : Char := alphabet.getD n 'A'

/-- The sextet of a character; the characters of the standard alphabet count as well. -/
def value? (c : Char) : Option ℕ :=
  if c = '+' then some 62 else if c = '/' then some 63 else alphabet.idxOf? c

/-- Encode bytes, padding the last group. -/
def encode : List UInt8 → List Char
  | [] => []
  | [a] => [digit (a.toNat / 4), digit (a.toNat % 4 * 16), '=', '=']
  | [a, b] =>
    [digit (a.toNat / 4), digit (a.toNat % 4 * 16 + b.toNat / 16), digit (b.toNat % 16 * 4), '=']
  | a :: b :: c :: rest =>
    digit (a.toNat / 4) :: digit (a.toNat % 4 * 16 + b.toNat / 16) ::
      digit (b.toNat % 16 * 4 + c.toNat / 64) :: digit (c.toNat % 64) :: encode rest

/-- The standard alphabet has other characters for the last two sextets. -/
def standardChar (c : Char) : Char := if c = '-' then '+' else if c = '_' then '/' else c

/-- Encode bytes in the standard alphabet. -/
def encodeStandard (bs : List UInt8) : List Char := (encode bs).map standardChar

/-- Decode from a position in a group of four: `left` holds the bits that are left over and `pads`
counts the padding characters seen since the last sextet. -/
def decodeFrom (quad left pads : ℕ) : List Char → Option (List UInt8)
  | [] => if quad = 0 then some [] else none
  | c :: cs =>
    if c = '=' then
      -- Padding ends a quad of two or three sextets, and is skipped elsewhere.
      if quad ≥ 2 then
        if quad + pads + 1 ≥ 4 then some [] else decodeFrom quad left (pads + 1) cs
      else decodeFrom quad left pads cs
    else
      match value? c with
      -- What is not in the alphabet is skipped.
      | none => decodeFrom quad left pads cs
      | some v =>
        match quad with
        | 0 => decodeFrom 1 v 0 cs
        | 1 => (decodeFrom 2 (v % 16) 0 cs).map (UInt8.ofNat (left * 4 + v / 16) :: ·)
        | 2 => (decodeFrom 3 (v % 4) 0 cs).map (UInt8.ofNat (left * 16 + v / 4) :: ·)
        | _ => (decodeFrom 0 0 0 cs).map (UInt8.ofNat (left * 64 + v) :: ·)

/-- Decode text. -/
def decode (cs : List Char) : Option (List UInt8) := decodeFrom 0 0 0 cs

theorem value?_digit {n : ℕ} (h : n < 64) : value? (digit n) = some n := by
  have hall : ∀ n : Fin 64, value? (digit n.val) = some n.val := by decide +kernel
  exact hall ⟨n, h⟩

theorem digit_ne_pad {n : ℕ} (h : n < 64) : digit n ≠ '=' := by
  have hall : ∀ n : Fin 64, digit n.val ≠ '=' := by decide +kernel
  exact hall ⟨n, h⟩

/-- One step of the decoder at a sextet. -/
theorem decodeFrom_digit {n : ℕ} (h : n < 64) (quad left pads : ℕ) (cs : List Char) :
    decodeFrom quad left pads (digit n :: cs) =
      match quad with
      | 0 => decodeFrom 1 n 0 cs
      | 1 => (decodeFrom 2 (n % 16) 0 cs).map (UInt8.ofNat (left * 4 + n / 16) :: ·)
      | 2 => (decodeFrom 3 (n % 4) 0 cs).map (UInt8.ofNat (left * 16 + n / 4) :: ·)
      | _ => (decodeFrom 0 0 0 cs).map (UInt8.ofNat (left * 64 + n) :: ·) := by
  rw [decodeFrom, if_neg (digit_ne_pad h), value?_digit h]

theorem ofNat_eq {n : ℕ} {a : UInt8} (h : n = a.toNat) : UInt8.ofNat n = a := by
  rw [h, UInt8.ofNat_toNat]

theorem decodeFrom_two_pads (left : ℕ) : decodeFrom 2 left 0 ['=', '='] = some [] := rfl

theorem decodeFrom_one_pad (left : ℕ) : decodeFrom 3 left 0 ['='] = some [] := rfl

/-- Decoding inverts encoding. -/
theorem decode_encode (bs : List UInt8) : decode (encode bs) = some bs := by
  unfold decode
  -- One case for each length of the last group, as the encoder recurses.
  induction bs using encode.induct with
  | case1 => rfl
  | case2 a =>
    have ha := a.toNat_lt
    have h₁ : a.toNat / 4 < 64 := by omega
    have h₂ : a.toNat % 4 * 16 < 64 := by omega
    have hbyte : UInt8.ofNat (a.toNat / 4 * 4 + a.toNat % 4 * 16 / 16) = a := ofNat_eq (by omega)
    simp only [encode, decodeFrom_digit h₁, decodeFrom_digit h₂, decodeFrom_two_pads,
      Option.map_some, hbyte]
  | case3 a b =>
    have ha := a.toNat_lt
    have hb := b.toNat_lt
    have h₁ : a.toNat / 4 < 64 := by omega
    have h₂ : a.toNat % 4 * 16 + b.toNat / 16 < 64 := by omega
    have h₃ : b.toNat % 16 * 4 < 64 := by omega
    have hfirst : UInt8.ofNat (a.toNat / 4 * 4 + (a.toNat % 4 * 16 + b.toNat / 16) / 16) = a :=
      ofNat_eq (by omega)
    have hsecond : UInt8.ofNat ((a.toNat % 4 * 16 + b.toNat / 16) % 16 * 16 +
        b.toNat % 16 * 4 / 4) = b := ofNat_eq (by omega)
    simp only [encode, decodeFrom_digit h₁, decodeFrom_digit h₂, decodeFrom_digit h₃,
      decodeFrom_one_pad, Option.map_some, hfirst, hsecond]
  | case4 a b c rest ih =>
    have ha := a.toNat_lt
    have hb := b.toNat_lt
    have hc := c.toNat_lt
    have h₁ : a.toNat / 4 < 64 := by omega
    have h₂ : a.toNat % 4 * 16 + b.toNat / 16 < 64 := by omega
    have h₃ : b.toNat % 16 * 4 + c.toNat / 64 < 64 := by omega
    have h₄ : c.toNat % 64 < 64 := by omega
    have hfirst : UInt8.ofNat (a.toNat / 4 * 4 + (a.toNat % 4 * 16 + b.toNat / 16) / 16) = a :=
      ofNat_eq (by omega)
    have hsecond : UInt8.ofNat ((a.toNat % 4 * 16 + b.toNat / 16) % 16 * 16 +
        (b.toNat % 16 * 4 + c.toNat / 64) / 4) = b := ofNat_eq (by omega)
    have hthird : UInt8.ofNat ((b.toNat % 16 * 4 + c.toNat / 64) % 4 * 64 + c.toNat % 64) = c :=
      ofNat_eq (by omega)
    simp only [encode, decodeFrom_digit h₁, decodeFrom_digit h₂, decodeFrom_digit h₃,
      decodeFrom_digit h₄, ih, Option.map_some, hfirst, hsecond, hthird]

theorem digit_ascii (n : ℕ) : (digit n).toNat < 128 := by
  have hall : alphabet.all (fun c => c.toNat < 128) = true := by decide +kernel
  rw [digit, List.getD_eq_getElem?_getD]
  cases h : alphabet[n]? with
  | none => decide
  | some c => simpa using List.all_eq_true.mp hall c (List.mem_of_getElem? h)

/-- Encoded text is ASCII. -/
theorem ascii_of_mem_encode {bs : List UInt8} {c : Char} (hc : c ∈ encode bs) : c.toNat < 128 := by
  have hpad : '='.toNat < 128 := by decide
  induction bs using encode.induct with
  | case1 => cases hc
  | case2 a | case3 a b =>
    simp only [encode, List.mem_cons, List.not_mem_nil, or_false] at hc
    rcases hc with rfl | rfl | rfl | rfl <;> first | exact digit_ascii _ | exact hpad
  | case4 a b c' rest ih =>
    simp only [encode, List.mem_cons] at hc
    rcases hc with rfl | rfl | rfl | rfl | hc
    · exact digit_ascii _
    · exact digit_ascii _
    · exact digit_ascii _
    · exact digit_ascii _
    · exact ih hc

theorem ascii_of_mem_encodeStandard {bs : List UInt8} {c : Char} (hc : c ∈ encodeStandard bs) :
    c.toNat < 128 := by
  obtain ⟨c, hmem, rfl⟩ := List.mem_map.mp hc
  rw [standardChar]
  split
  · decide
  · split
    · decide
    · exact ascii_of_mem_encode hmem

end Base64
