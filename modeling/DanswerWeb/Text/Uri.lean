import Mathlib.Data.List.Basic

namespace DanswerWeb.Text

/-- What `encodeURIComponent` leaves as it is: ASCII letters, digits and `-_.!~*'()`. -/
def isUnreserved (c : Char) : Bool :=
  c.isAlphanum || ['-', '_', '.', '!', '~', '*', '\'', '(', ')'].contains c

/-- The UTF-8 bytes of a character. -/
def utf8Bytes (c : Char) : List Nat :=
  let n := c.toNat
  if n < 0x80 then [n]
  else if n < 0x800 then [0xC0 + n / 0x40, 0x80 + n % 0x40]
  else if n < 0x10000 then [0xE0 + n / 0x1000, 0x80 + n / 0x40 % 0x40, 0x80 + n % 0x40]
  else [0xF0 + n / 0x40000, 0x80 + n / 0x1000 % 0x40, 0x80 + n / 0x40 % 0x40, 0x80 + n % 0x40]

/-- An uppercase hexadecimal digit. -/
def hexDigit (d : Nat) : Char :=
  if d < 10 then Char.ofNat (0x30 + d) else Char.ofNat (0x37 + d)

/-- The `%XX` escape of a byte. -/
def escapeByte (b : Nat) : List Char :=
  ['%', hexDigit (b / 16), hexDigit (b % 16)]

/-- `encodeURIComponent` on one character. -/
def encodeChar (c : Char) : List Char :=
  if isUnreserved c then [c] else (utf8Bytes c).flatMap escapeByte

/-- `encodeURIComponent(text)`. -/
def encodeURIComponent (text : List Char) : List Char :=
  text.flatMap encodeChar

@[simp]
theorem encodeURIComponent_nil : encodeURIComponent [] = [] := rfl

@[simp]
theorem encodeURIComponent_cons (c : Char) (text : List Char) :
    encodeURIComponent (c :: text) = encodeChar c ++ encodeURIComponent text := rfl

/-- The value of a hexadecimal digit of either case. -/
def hexValue (c : Char) : Option Nat :=
  if '0' ≤ c ∧ c ≤ '9' then some (c.toNat - 0x30)
  else if 'A' ≤ c ∧ c ≤ 'F' then some (c.toNat - 0x37)
  else if 'a' ≤ c ∧ c ≤ 'f' then some (c.toNat - 0x57)
  else none

/-- A `%XX` escape at the head of a text: its byte and the text after it. -/
def escapedByte : List Char → Option (Nat × List Char)
  | '%' :: high :: low :: rest => do
    let h ← hexValue high
    let l ← hexValue low
    pure (16 * h + l, rest)
  | _ => none

/-- The number of continuation bytes a leading byte announces. -/
def continuationCount (first : Nat) : Option Nat :=
  if first / 0x20 = 6 then some 1
  else if first / 0x10 = 14 then some 2
  else if first / 0x08 = 30 then some 3
  else none

/-- `count` escapes of continuation bytes `10xxxxxx` at the head of a text. -/
def continuationBytes : Nat → List Char → Option (List Nat × List Char)
  | 0, text => some ([], text)
  | count + 1, text => do
    let (b, rest) ← escapedByte text
    if b / 0x40 = 2 then
      let (more, after) ← continuationBytes count rest
      pure (b :: more, after)
    else none

/-- The code point of a leading byte and its continuation bytes. -/
def utf8Value (first : Nat) (more : List Nat) : Nat :=
  more.foldl (fun value b => 0x40 * value + b % 0x40) (first % (0x40 >>> more.length))

/-- Whether a code point is a scalar value in its shortest UTF-8 form of `count + 1` bytes. -/
def shortestForm (point count : Nat) : Bool :=
  match count with
  | 1 => 0x80 ≤ point && point < 0x800
  | 2 => 0x800 ≤ point && point < 0x10000 && !(0xD800 ≤ point && point ≤ 0xDFFF)
  | 3 => 0x10000 ≤ point && point < 0x110000
  | _ => false

/-- One escaped character at the head of a text: the character and the text after it. -/
def decodeEscape (text : List Char) : Option (Char × List Char) := do
  let (first, rest) ← escapedByte text
  if first < 0x80 then pure (Char.ofNat first, rest)
  else
    let count ← continuationCount first
    let (more, after) ← continuationBytes count rest
    let point := utf8Value first more
    if shortestForm point count then pure (Char.ofNat point, after) else none

/-- `decodeURIComponent` with fuel for the length of the text. -/
def decodeFuel : Nat → List Char → Option (List Char)
  | _, [] => some []
  | 0, _ :: _ => none
  | fuel + 1, c :: rest =>
    if c = '%' then do
      let (d, after) ← decodeEscape (c :: rest)
      let tail ← decodeFuel fuel after
      pure (d :: tail)
    else (decodeFuel fuel rest).map (c :: ·)

/-- `decodeURIComponent(text)`, `none` for a `URIError`. -/
def decodeURIComponent (text : List Char) : Option (List Char) :=
  decodeFuel text.length text

/-- Form decoding of a name or value: `+` is a space, then the escapes are decoded. -/
def formDecode (text : List Char) : Option (List Char) :=
  decodeURIComponent (text.map fun c => if c = '+' then ' ' else c)

/-- The query of a URL: what follows its first `?`, up to a `#`. -/
def urlQuery (url : List Char) : List Char :=
  ((url.dropWhile (· != '?')).drop 1).takeWhile (· != '#')

/-- `URLSearchParams.get(name)` on a query: the value of the first pair whose name is `name`. -/
def searchParamsGet (name query : List Char) : Option (List Char) :=
  match (query.splitOn '&').find? fun pair => formDecode (pair.takeWhile (· != '=')) == some name with
  | some pair => formDecode ((pair.dropWhile (· != '=')).drop 1)
  | none => none

theorem hexValue_hexDigit : ∀ d < 16, hexValue (hexDigit d) = some d := by
  decide

theorem escapedByte_escapeByte {b : Nat} (small : b < 0x100) (rest : List Char) :
    escapedByte (escapeByte b ++ rest) = some (b, rest) := by
  have high := hexValue_hexDigit (b / 16) (by omega)
  have low := hexValue_hexDigit (b % 16) (by omega)
  simp [escapeByte, escapedByte, high, low, Nat.div_add_mod]

theorem continuationBytes_escapes (rest : List Char) :
    ∀ bytes : List Nat, (∀ b ∈ bytes, b / 0x40 = 2) →
      continuationBytes bytes.length (bytes.flatMap escapeByte ++ rest) = some (bytes, rest)
  | [], _ => rfl
  | b :: bytes, continued => by
    have marked := continued b (List.mem_cons_self b bytes)
    have tail := continuationBytes_escapes rest bytes fun c mem =>
      continued c (List.mem_cons_of_mem b mem)
    rw [List.flatMap_cons, List.append_assoc, List.length_cons, continuationBytes,
      escapedByte_escapeByte (by omega)]
    simp [marked, tail]

/-- The escapes of a character's shortest UTF-8 form decode to it. -/
theorem decodeEscape_escapes (c : Char) (first : Nat) (more : List Nat) {count : Nat}
    (rest : List Char) (leading : 0x80 ≤ first ∧ first < 0x100)
    (opening : continuationCount first = some count) (length : more.length = count)
    (continued : ∀ b ∈ more, b / 0x40 = 2) (value : utf8Value first more = c.toNat)
    (shortest : shortestForm c.toNat count = true) :
    decodeEscape ((first :: more).flatMap escapeByte ++ rest) = some (c, rest) := by
  subst length
  rw [List.flatMap_cons, List.append_assoc, decodeEscape, escapedByte_escapeByte leading.2]
  simp [Nat.not_lt.mpr leading.1, opening, continuationBytes_escapes rest more continued, value,
    shortest]

/-- The escapes of a character's UTF-8 bytes decode to the character. -/
theorem decodeEscape_utf8Bytes (c : Char) (rest : List Char) :
    decodeEscape ((utf8Bytes c).flatMap escapeByte ++ rest) = some (c, rest) := by
  have valid : c.toNat < 0xD800 ∨ 0xDFFF < c.toNat ∧ c.toNat < 0x110000 := c.valid
  dsimp only [utf8Bytes]
  split_ifs with ascii
  · rw [List.flatMap_singleton, decodeEscape, escapedByte_escapeByte (by omega)]
    simp [ascii]
  all_goals
    refine decodeEscape_escapes c _ _ rest ⟨by omega, by omega⟩ ?_ rfl (by simp; omega)
      (by simp [utf8Value]; omega) (by simp [shortestForm]; omega)
    simp only [continuationCount]
    split_ifs <;> first | rfl | omega

theorem utf8Bytes_lt (c : Char) : ∀ b ∈ utf8Bytes c, b < 0x100 := by
  have valid : c.toNat < 0xD800 ∨ 0xDFFF < c.toNat ∧ c.toNat < 0x110000 := c.valid
  dsimp only [utf8Bytes]
  split_ifs <;> simp <;> omega

/-- A reserved character is written as escapes: it starts with `%` and takes three or more. -/
theorem encodeChar_of_reserved {c : Char} (reserved : isUnreserved c = false) :
    ∃ more, encodeChar c = '%' :: more ∧ 2 ≤ more.length := by
  obtain ⟨first, bytes, split⟩ : ∃ first bytes, utf8Bytes c = first :: bytes := by
    dsimp only [utf8Bytes]
    split_ifs <;> exact ⟨_, _, rfl⟩
  rw [encodeChar, if_neg (by simp [reserved]), split, List.flatMap_cons]
  exact ⟨hexDigit (first / 16) :: hexDigit (first % 16) :: bytes.flatMap escapeByte, rfl, by simp⟩

/-- Decoding with enough fuel reads back what `encodeURIComponent` wrote. -/
theorem decodeFuel_encodeURIComponent :
    ∀ (text : List Char) (fuel : Nat), (encodeURIComponent text).length ≤ fuel →
      decodeFuel fuel (encodeURIComponent text) = some text
  | [], fuel, _ => by cases fuel <;> rfl
  | c :: text, fuel, enough => by
    rw [encodeURIComponent_cons] at enough ⊢
    cases plain : isUnreserved c
    · obtain ⟨more, escaped, long⟩ := encodeChar_of_reserved plain
      rw [escaped, List.cons_append, List.length_cons, List.length_append] at enough
      obtain ⟨fuel, rfl⟩ : ∃ rest, fuel = rest + 1 := ⟨fuel - 1, by omega⟩
      have tail := decodeFuel_encodeURIComponent text fuel (by omega)
      rw [escaped, List.cons_append, decodeFuel, if_pos rfl, ← List.cons_append, ← escaped,
        encodeChar, if_neg (by simp [plain]), decodeEscape_utf8Bytes]
      simp [tail]
    · have kept : encodeChar c = [c] := if_pos plain
      have notPercent : c ≠ '%' := by rintro rfl; exact absurd plain (by decide)
      rw [kept, List.singleton_append] at enough ⊢
      rw [List.length_cons] at enough
      obtain ⟨fuel, rfl⟩ : ∃ rest, fuel = rest + 1 := ⟨fuel - 1, by omega⟩
      rw [decodeFuel, if_neg notPercent,
        decodeFuel_encodeURIComponent text fuel (by omega)]
      rfl

/-- `decodeURIComponent(encodeURIComponent(text))` is `text`. -/
theorem decodeURIComponent_encodeURIComponent (text : List Char) :
    decodeURIComponent (encodeURIComponent text) = some text :=
  decodeFuel_encodeURIComponent text _ le_rfl

example : encodeURIComponent "/chat?x=1 é".toList = "%2Fchat%3Fx%3D1%20%C3%A9".toList := by
  decide

theorem hexDigit_unreserved : ∀ d < 16, isUnreserved (hexDigit d) = true := by
  decide

/-- `encodeURIComponent` writes only unreserved characters and the `%` of its escapes. -/
theorem encodeURIComponent_unreserved (text : List Char) :
    ∀ c ∈ encodeURIComponent text, isUnreserved c = true ∨ c = '%' := by
  simp only [encodeURIComponent, List.mem_flatMap]
  rintro c ⟨d, -, mem⟩
  unfold encodeChar at mem
  split at mem
  · next plain => exact .inl (List.mem_singleton.mp mem ▸ plain)
  · obtain ⟨b, byte, mem⟩ := List.mem_flatMap.mp mem
    have small := utf8Bytes_lt d b byte
    simp only [escapeByte, List.mem_cons, List.mem_singleton, List.not_mem_nil, or_false] at mem
    rcases mem with rfl | rfl | rfl
    · exact .inr rfl
    · exact .inl (hexDigit_unreserved _ (by omega))
    · exact .inl (hexDigit_unreserved _ (by omega))

theorem encodeURIComponent_ne (c : Char) (reserved : isUnreserved c = false) (notPercent : c ≠ '%')
    (text : List Char) : ∀ d ∈ encodeURIComponent text, d ≠ c := by
  rintro d mem rfl
  rcases encodeURIComponent_unreserved text d mem with plain | percent
  · exact absurd plain (by simp [reserved])
  · exact notPercent percent

theorem formDecode_encodeURIComponent (text : List Char) :
    formDecode (encodeURIComponent text) = some text := by
  rw [formDecode, List.map_congr_left fun d mem =>
      if_neg (encodeURIComponent_ne '+' (by decide) (by decide) text d mem),
    List.map_id', decodeURIComponent_encodeURIComponent]

/-- A query `key=value` written with `encodeURIComponent` gives `value` back under `key`. -/
theorem searchParamsGet_encoded (key value : List Char) :
    searchParamsGet key (encodeURIComponent key ++ '=' :: encodeURIComponent value) = some value := by
  have named : ∀ c ∈ encodeURIComponent key, (c != '=') = true := fun c mem => by
    simpa using encodeURIComponent_ne '=' (by decide) (by decide) key c mem
  have single : ∀ c ∈ encodeURIComponent key ++ '=' :: encodeURIComponent value,
      ¬(c == '&') = true := fun c mem => by
    simp only [List.mem_append, List.mem_cons] at mem
    rcases mem with mem | rfl | mem
    · simpa using encodeURIComponent_ne '&' (by decide) (by decide) key c mem
    · decide
    · simpa using encodeURIComponent_ne '&' (by decide) (by decide) value c mem
  rw [searchParamsGet, List.splitOn, List.splitOnP_eq_single _ _ single, List.find?_singleton,
    List.takeWhile_append_of_pos named]
  simp [formDecode_encodeURIComponent, List.dropWhile_append_of_pos named]

end DanswerWeb.Text
