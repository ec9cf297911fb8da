import DanswerWeb.Text.Regex

namespace DanswerWeb.Message

open DanswerWeb.Text

/-- The UTF-16 code units of a character: one below U+10000, a surrogate pair above. -/
def utf16 (c : Char) : List UInt16 :=
  if c.toNat < 0x10000 then [c.toNat.toUInt16]
  else [(0xD800 + (c.toNat - 0x10000) / 0x400).toUInt16,
    (0xDC00 + (c.toNat - 0x10000) % 0x400).toUInt16]

/-- A string as JavaScript holds it, which `match.index` and `slice` count in. -/
def codeUnits (text : List Char) : List UInt16 :=
  text.flatMap utf16

/-- The code units of `\s`: white space and line terminators. -/
def spaceUnits : List UInt16 :=
  [0x09, 0x0A, 0x0B, 0x0C, 0x0D, 0x20, 0xA0, 0x1680, 0x2000, 0x2001, 0x2002, 0x2003, 0x2004,
    0x2005, 0x2006, 0x2007, 0x2008, 0x2009, 0x200A, 0x2028, 0x2029, 0x202F, 0x205F, 0x3000, 0xFEFF]

/-- `[a-zA-Z]` on a code unit. -/
def isAsciiLetter (unit : UInt16) : Bool :=
  (65 ≤ unit.toNat && unit.toNat ≤ 90) || (97 ≤ unit.toNat && unit.toNat ≤ 122)

/-- `/```[a-zA-Z]+[^\s]*$/` read at the head of a text. -/
def incompleteFenceAt : List UInt16 → Option (Unit × List UInt16)
  | a :: b :: c :: name :: rest =>
    if a = 96 ∧ b = 96 ∧ c = 96 ∧ isAsciiLetter name ∧ ∀ d ∈ rest, d ∉ spaceUnits then
      some ((), [])
    else none
  | _ => none

/-- `/```[a-zA-Z]+[^\s]*$/`. -/
def incompleteFence : Regex UInt16 Unit where
  matchAt := incompleteFenceAt
  consumes text marker rest found := by
    unfold incompleteFenceAt at found
    split at found
    · split at found
      · cases found
        exact ⟨_, by simp, (List.append_nil _).symm⟩
      · cases found
    · cases found

/-- `trimIncompleteCodeSection` on a string. -/
def trimIncompleteCodeSection (content : List UInt16) : List UInt16 :=
  match incompleteFence.search content with
  | some (index, _) => if index != 0 && index > 3 then content.take (index - 3) else content
  | none => content

theorem codeUnits_fence : codeUnits "```".toList = [96, 96, 96] := by
  decide

/-- No match of the fence regex starts before a white space unit. -/
theorem incompleteFenceAt_of_space {space : UInt16} (white : space ∈ spaceUnits)
    (before after : List UInt16) : incompleteFenceAt (before ++ space :: after) = none := by
  have tick : (96 : UInt16) ∉ spaceUnits := by decide
  have notLetter : ∀ d ∈ spaceUnits, isAsciiLetter d = false := by decide
  unfold incompleteFenceAt
  split
  · next a b c name rest shape =>
    have mem : space ∈ a :: b :: c :: name :: rest := by rw [← shape]; simp
    rw [if_neg]
    rintro ⟨rfl, rfl, rfl, letter, clear⟩
    simp only [List.mem_cons] at mem
    rcases mem with rfl | rfl | rfl | rfl | inRest
    · exact tick white
    · exact tick white
    · exact tick white
    · simp [notLetter _ white] at letter
    · exact clear _ inRest white
  · rfl

/-- A trailing fence opener after white space goes with the space and the two units before it. -/
theorem trimIncompleteCodeSection_after_space (front rest : List UInt16) {space name : UInt16}
    (white : space ∈ spaceUnits) (letter : isAsciiLetter name) (clear : ∀ c ∈ rest, c ∉ spaceUnits)
    (long : 3 ≤ front.length) :
    trimIncompleteCodeSection (front ++ space :: codeUnits "```".toList ++ name :: rest) =
      front.take (front.length - 2) := by
  have opener : incompleteFence.matchAt ([96, 96, 96] ++ name :: rest) = some ((), []) :=
    if_pos ⟨rfl, rfl, rfl, letter, clear⟩
  have misses : ∀ k < (front ++ [space]).length, incompleteFence.matchAt
      ((front ++ [space] ++ ([96, 96, 96] ++ name :: rest)).drop k) = none := by
    intro k below
    have within : k ≤ front.length := by simp at below; omega
    rw [List.drop_append_of_le_length (by simp; omega), List.drop_append_of_le_length within,
      List.append_assoc, List.singleton_append]
    exact incompleteFenceAt_of_space white _ _
  have found : incompleteFence.search (front ++ space :: [96, 96, 96] ++ name :: rest) =
      some (front.length + 1, ()) := by
    have split : front ++ space :: [96, 96, 96] ++ name :: rest =
        front ++ [space] ++ ([96, 96, 96] ++ name :: rest) := by simp
    rw [split, Regex.search_append _ misses, Regex.search_of_matchAt opener]
    simp
  rw [codeUnits_fence, trimIncompleteCodeSection, found]
  dsimp only
  rw [if_pos (by simp; omega), show front.length + 1 - 3 = front.length - 2 by omega,
    List.append_assoc, List.take_append_of_le_length (by omega)]

theorem trimIncompleteCodeSection_after_newline :
    trimIncompleteCodeSection (codeUnits "Code:".toList ++ 0x0A :: codeUnits "```".toList ++
        0x70 :: codeUnits "ython".toList) = codeUnits "Cod".toList :=
  trimIncompleteCodeSection_after_space (codeUnits "Code:".toList) (codeUnits "ython".toList)
    (by decide) (by decide) (by decide) (by decide)

/-- At `abcdef```py` the opener starts at index 6, and the code keeps `content.slice(0, 3)`. -/
theorem trimIncompleteCodeSection_drops_three :
    trimIncompleteCodeSection (codeUnits "abcdef```py".toList) = codeUnits "abc".toList := by
  decide

end DanswerWeb.Message
