import Mathlib.Data.List.Basic
import Mathlib.Tactic.Ring
import Mathlib.Data.Nat.Digits

namespace DanswerWeb.Text

/-- The value of one decimal digit. -/
def digitValue (c : Char) : Nat := c.toNat - '0'.toNat

/-- The value `parseInt(digits, 10)` reads from a run of decimal digits. -/
def digitsValue (digits : List Char) : Nat :=
  digits.foldl (fun value c => 10 * value + digitValue c) 0

/-- The text `${parseInt(digits, 10)}` of a run of digits, printed exactly. -/
def parseIntText (digits : List Char) : List Char :=
  Nat.toDigits 10 (digitsValue digits)

theorem foldl_digitValue (digits : List Char) (value : Nat) :
    digits.foldl (fun value c => 10 * value + digitValue c) value =
      value * 10 ^ digits.length + digitsValue digits := by
  induction digits generalizing value with
  | nil => simp [digitsValue]
  | cons c rest tail =>
    rw [digitsValue, List.foldl_cons, List.foldl_cons, tail, tail (10 * 0 + digitValue c),
      List.length_cons, pow_succ]
    ring

theorem digitsValue_cons (c : Char) (rest : List Char) :
    digitsValue (c :: rest) = digitValue c * 10 ^ rest.length + digitsValue rest := by
  rw [digitsValue, List.foldl_cons, foldl_digitValue]
  ring

theorem digitChar_value : ∀ k < 10, digitValue (Nat.digitChar k) = k := by decide

theorem digitChar_isDigit : ∀ k < 10, (Nat.digitChar k).isDigit := by decide

theorem toDigitsCore_value :
    ∀ fuel n (digits : List Char), n < fuel →
      digitsValue (Nat.toDigitsCore 10 fuel n digits) = n * 10 ^ digits.length + digitsValue digits
  | 0, _, _, below => absurd below (Nat.not_lt_zero _)
  | fuel + 1, n, digits, below => by
    have digit := digitChar_value (n % 10) (Nat.mod_lt n (by decide))
    have split := Nat.div_add_mod n 10
    simp only [Nat.toDigitsCore]
    split
    · next small =>
      rw [digitsValue_cons, digit, Nat.mod_eq_of_lt (by omega)]
    · next large =>
      rw [toDigitsCore_value fuel (n / 10) _ (by omega), digitsValue_cons, digit,
        List.length_cons, pow_succ]
      calc n / 10 * (10 ^ digits.length * 10) + (n % 10 * 10 ^ digits.length + digitsValue digits)
          = (10 * (n / 10) + n % 10) * 10 ^ digits.length + digitsValue digits := by ring
        _ = n * 10 ^ digits.length + digitsValue digits := by rw [split]

/-- Reading back the printed decimal text of `n` gives `n`. -/
theorem digitsValue_toDigits (n : Nat) : digitsValue (Nat.toDigits 10 n) = n := by
  simpa [digitsValue] using toDigitsCore_value (n + 1) n [] (Nat.lt_succ_self n)

theorem toDigitsCore_isDigit :
    ∀ fuel n (digits : List Char), (∀ c ∈ digits, c.isDigit) →
      ∀ c ∈ Nat.toDigitsCore 10 fuel n digits, c.isDigit
  | 0, _, _, valid => valid
  | fuel + 1, n, digits, valid => by
    have digit := digitChar_isDigit (n % 10) (Nat.mod_lt n (by decide))
    simp only [Nat.toDigitsCore]
    split
    · simpa [digit] using valid
    · exact toDigitsCore_isDigit fuel (n / 10) _ (by simpa [digit] using valid)

/-- The printed text of a number is made of decimal digits. -/
theorem toDigits_isDigit (n : Nat) : ∀ c ∈ Nat.toDigits 10 n, c.isDigit :=
  toDigitsCore_isDigit _ _ _ (by simp)

theorem toDigits_ne_nil (n : Nat) : Nat.toDigits 10 n ≠ [] := by
  simp only [Nat.toDigits, Nat.toDigitsCore]
  split
  · simp
  · exact fun empty => by
      have := congrArg digitsValue empty
      rw [toDigitsCore_value n (n / 10) _ (by omega)] at this
      simp [digitsValue, digitsValue_cons] at this
      omega

theorem toDigits_injective : Function.Injective (Nat.toDigits 10) := fun m n same => by
  rw [← digitsValue_toDigits m, same, digitsValue_toDigits]

/-- Distinct integers print to distinct texts. -/
theorem toString_int_injective : Function.Injective (toString : Int → String) := by
  have sign : ∀ m n : Nat, (toString (Int.ofNat m)).data ≠ (toString (Int.negSucc n)).data := by
    intro m n same
    obtain ⟨head, tail, start⟩ := List.exists_cons_of_ne_nil (toDigits_ne_nil m)
    have digit := toDigits_isDigit m head (by simp [start])
    simp only [toString, Nat.repr, List.asString, String.data_append, start] at same
    cases same
    exact absurd digit (by decide)
  intro a b same
  have data := congrArg String.data same
  cases a <;> cases b
  · simp only [toString, Nat.repr, List.asString] at data
    rw [toDigits_injective data]
  · exact absurd data (sign _ _)
  · exact absurd data.symm (sign _ _)
  · simp only [toString, Nat.repr, List.asString, String.data_append, List.append_cancel_left_eq] at data
    rw [Nat.succ_inj'.mp (toDigits_injective data)]

end DanswerWeb.Text
