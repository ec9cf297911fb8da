import DanswerWeb.Text.Regex
import DanswerWeb.Text.Number

namespace DanswerWeb.Message

open DanswerWeb.Text

/-- The regex `/\[([QD])(\d+)\]/g` read at the head of a text: the tag letter and its digits. -/
def citationTagAt : List Char → Option ((Char × List Char) × List Char)
  | '[' :: kind :: rest =>
    if kind = 'Q' ∨ kind = 'D' then
      match runUntil Char.isDigit ']' rest with
      | some (digits@(_ :: _), after) => some ((kind, digits), after)
      | _ => none
    else none
  | _ => none

/-- The regex `/\{\{(\d+)\}\}/g` read at the head of a text: the digits. -/
def braceCitationAt : List Char → Option (List Char × List Char)
  | '{' :: '{' :: rest =>
    match runUntil Char.isDigit '}' rest with
    | some (digits@(_ :: _), '}' :: after) => some (digits, after)
    | _ => none
  | _ => none

/-- The regex `/\]\](?!\()/g` read at the head of a text. -/
def bareCloseAt : List Char → Option (Unit × List Char)
  | ']' :: ']' :: rest => if rest.head? = some '(' then none else some ((), rest)
  | _ => none

theorem citationTagAt_eq_some {text after digits : List Char} {kind : Char} :
    citationTagAt text = some ((kind, digits), after) ↔
      (kind = 'Q' ∨ kind = 'D') ∧ digits ≠ [] ∧ (∀ c ∈ digits, c.isDigit) ∧
        text = '[' :: kind :: digits ++ ']' :: after := by
  constructor
  · intro found
    unfold citationTagAt at found
    split at found
    · split at found
      · next isKind =>
        split at found
        · next run => 
          cases found
          obtain ⟨shape, digitsOnly⟩ := runUntil_eq_some run
          exact ⟨isKind, by simp, digitsOnly, by simp [shape]⟩
        · cases found
      · cases found
    · cases found
  · rintro ⟨isKind, nonempty, digitsOnly, rfl⟩
    obtain ⟨first, more, rfl⟩ := List.exists_cons_of_ne_nil nonempty
    have notDigit : (']' : Char).isDigit = false := by decide
    simp only [citationTagAt, List.cons_append, isKind, if_true]
    rw [← List.cons_append, runUntil_of_run notDigit after digitsOnly]

theorem braceCitationAt_eq_some {text after digits : List Char} :
    braceCitationAt text = some (digits, after) ↔
      digits ≠ [] ∧ (∀ c ∈ digits, c.isDigit) ∧ text = '{' :: '{' :: digits ++ '}' :: '}' :: after := by
  constructor
  · intro found
    unfold braceCitationAt at found
    split at found
    · split at found
      · next run =>
        cases found
        obtain ⟨shape, digitsOnly⟩ := runUntil_eq_some run
        exact ⟨by simp, digitsOnly, by simp [shape]⟩
      · cases found
    · cases found
  · rintro ⟨nonempty, digitsOnly, rfl⟩
    obtain ⟨first, more, rfl⟩ := List.exists_cons_of_ne_nil nonempty
    have notDigit : ('}' : Char).isDigit = false := by decide
    simp only [braceCitationAt, List.cons_append]
    rw [← List.cons_append, runUntil_of_run notDigit ('}' :: after) digitsOnly]
    rfl

theorem bareCloseAt_eq_some {text after : List Char} {marker : Unit} :
    bareCloseAt text = some (marker, after) ↔ text = ']' :: ']' :: after ∧ after.head? ≠ some '(' := by
  constructor
  · intro found
    unfold bareCloseAt at found
    split at found
    · split at found
      · cases found
      · next notLink => cases found; exact ⟨rfl, notLink⟩
    · cases found
  · rintro ⟨rfl, notLink⟩
    simp [bareCloseAt, notLink]

/-- The citation-tag regex. -/
def citationTag : Regex Char (Char × List Char) where
  matchAt := citationTagAt
  consumes _ tag _ found := by
    obtain ⟨-, -, -, rfl⟩ := citationTagAt_eq_some.mp found
    exact ⟨'[' :: tag.1 :: tag.2 ++ [']'], List.cons_ne_nil _ _, by simp⟩

/-- The brace-citation regex. -/
def braceCitation : Regex Char (List Char) where
  matchAt := braceCitationAt
  consumes _ digits _ found := by
    obtain ⟨-, -, rfl⟩ := braceCitationAt_eq_some.mp found
    exact ⟨'{' :: '{' :: digits ++ ['}', '}'], List.cons_ne_nil _ _, by simp⟩

/-- The regex of a `]]` that does not start a link target. -/
def bareClose : Regex Char Unit where
  matchAt := bareCloseAt
  consumes _ _ _ found := by
    obtain ⟨rfl, -⟩ := bareCloseAt_eq_some.mp found
    exact ⟨[']', ']'], List.cons_ne_nil _ _, rfl⟩

theorem citationTagAt_cons_of_ne {c : Char} (rest : List Char) (other : c ≠ '[') :
    citationTagAt (c :: rest) = none := by
  cases found : citationTagAt (c :: rest) with
  | none => rfl
  | some result =>
    obtain ⟨⟨kind, digits⟩, after⟩ := result
    obtain ⟨-, -, -, shape⟩ := citationTagAt_eq_some.mp found
    cases shape
    exact absurd rfl other

theorem citationTagAt_of_kind {x kind : Char} (rest : List Char) (other : kind ≠ 'Q' ∧ kind ≠ 'D') :
    citationTagAt (x :: kind :: rest) = none := by
  cases found : citationTagAt (x :: kind :: rest) with
  | none => rfl
  | some result =>
    obtain ⟨⟨kind', digits⟩, after⟩ := result
    obtain ⟨isKind, -, -, shape⟩ := citationTagAt_eq_some.mp found
    cases shape
    rcases isKind with rfl | rfl <;> simp at other

theorem braceCitationAt_cons_of_ne {c : Char} (rest : List Char) (other : c ≠ '{') :
    braceCitationAt (c :: rest) = none := by
  cases found : braceCitationAt (c :: rest) with
  | none => rfl
  | some result =>
    obtain ⟨-, -, shape⟩ := braceCitationAt_eq_some.mp found
    cases shape
    exact absurd rfl other

/-- The characters the rewrites and the code-fence regex read. -/
def markupChars : List Char := ['[', ']', '{', '}', '(', ')', '`', '\n', 'Q', 'D']

/-- A number's text holds none of the characters the rewrites read, as JavaScript's does. -/
def PlainNumberText (numberText : List Char → List Char) : Prop :=
  ∀ digits, ∀ c ∈ numberText digits, c ∉ markupChars

theorem parseIntText_plain : PlainNumberText parseIntText := by
  have notDigit : ∀ c ∈ markupChars, c.isDigit = false := by decide
  intro digits c mem markup
  simpa [notDigit c markup] using toDigits_isDigit _ c mem

@[simp] theorem citationTag_matchAt : citationTag.matchAt = citationTagAt := rfl

@[simp] theorem braceCitation_matchAt : braceCitation.matchAt = braceCitationAt := rfl

@[simp] theorem bareClose_matchAt : bareClose.matchAt = bareCloseAt := rfl

variable (numberText : List Char → List Char)

/-- The replacement `[[${type}${citationNumber}]]()` of a citation tag. -/
def citationLink (tag : Char × List Char) : List Char :=
  "[[".toList ++ tag.1 :: numberText tag.2 ++ "]]()".toList

/-- The replacement `[[${citationNumber}]]()` of a brace citation. -/
def braceLink (digits : List Char) : List Char :=
  "[[".toList ++ numberText digits ++ "]]()".toList

/-- `processed.replace(/\[([QD])(\d+)\]/g, ...)`. -/
def replaceCitationTags : List Char → List Char :=
  citationTag.replace (citationLink numberText)

/-- `processed.replace(/\{\{(\d+)\}\}/g, ...)`. -/
def replaceBraceCitations : List Char → List Char :=
  braceCitation.replace (braceLink numberText)

/-- `processed.replace(/\]\](?!\()/g, "]]()")`. -/
def closeBrackets : List Char → List Char :=
  bareClose.replace fun _ => "]]()".toList

/-- The three rewrites of lines 161 to 171 of `processContent`, in order. -/
def citationRewrites (processed : List Char) : List Char :=
  closeBrackets (replaceBraceCitations numberText (replaceCitationTags numberText processed))

theorem closeBrackets_cons {c : Char} {rest : List Char} (missed : bareCloseAt (c :: rest) = none) :
    closeBrackets (c :: rest) = c :: closeBrackets rest :=
  Regex.replace_cons_of_matchAt _ missed

theorem closeBrackets_of_bareCloseAt {text rest : List Char} (found : bareCloseAt text = some ((), rest)) :
    closeBrackets text = "]]()".toList ++ closeBrackets rest :=
  Regex.replace_of_matchAt _ found

/-- The rewrite of bare `]]` keeps the first character of every text. -/
theorem closeBrackets_head? (text : List Char) : (closeBrackets text).head? = text.head? := by
  cases text with
  | nil => rfl
  | cons c rest =>
    cases found : bareCloseAt (c :: rest) with
    | none => rw [closeBrackets_cons found]; rfl
    | some result =>
      obtain ⟨⟨⟩, after⟩ := result
      obtain ⟨shape, -⟩ := bareCloseAt_eq_some.mp found
      rw [closeBrackets_of_bareCloseAt found, shape]
      rfl

/-- Every `]]` left by the rewrite of bare `]]` opens a link target. -/
theorem closeBrackets_no_bare (text : List Char) :
    ∀ before after, closeBrackets text = before ++ ']' :: ']' :: after → after.head? = some '(' := by
  induction text using bareClose.induction with
  | nil => intro before after split; simp [closeBrackets] at split
  | matched text marker rest found tail =>
    intro before after split
    rw [closeBrackets_of_bareCloseAt found] at split
    change ']' :: ']' :: '(' :: ')' :: closeBrackets rest = _ at split
    match before, split with
    | [], split => simp at split; simp [← split]
    | [_], split => simp at split
    | [_, _], split => simp at split
    | [_, _, _], split => simp at split
    | _ :: _ :: _ :: _ :: before, split =>
      simp only [List.cons_append, List.cons.injEq] at split
      exact tail before after split.2.2.2.2
  | skipped c rest missed tail =>
    change bareCloseAt (c :: rest) = none at missed
    intro before after split
    rw [closeBrackets_cons missed] at split
    match before, split with
    | [], split =>
      simp only [List.nil_append, List.cons.injEq] at split
      obtain ⟨rfl, rest_split⟩ := split
      have start := closeBrackets_head? rest
      rw [rest_split] at start
      obtain ⟨r, rfl⟩ := List.head?_eq_some_iff.mp start.symm
      have link : r.head? = some '(' := by
        by_contra notLink
        have found : bareCloseAt (']' :: ']' :: r) = some ((), r) :=
          bareCloseAt_eq_some.mpr ⟨rfl, notLink⟩
        rw [found] at missed
        cases missed
      obtain ⟨r', rfl⟩ := List.head?_eq_some_iff.mp link
      rw [closeBrackets_cons (show bareCloseAt (']' :: '(' :: r') = none from rfl),
        closeBrackets_cons (show bareCloseAt ('(' :: r') = none from rfl)] at rest_split
      simp only [List.cons.injEq] at rest_split
      simp [← rest_split.2]
    | x :: before, split =>
      simp only [List.cons_append, List.cons.injEq] at split
      exact tail before after split.2

/-- After the citation and bracket rewrites, every `]]` is followed by `(`. -/
theorem citationRewrites_close_followed_by_paren (s before after : List Char)
    (split : citationRewrites parseIntText s = before ++ ']' :: ']' :: after) :
    after.head? = some '(' :=
  closeBrackets_no_bare _ before after split

theorem citationRewrites_close_followed_by_paren_trailing :
    citationRewrites parseIntText "x]]".toList = "x".toList ++ ']' :: ']' :: "()".toList ∧
      "()".toList.head? = some '(' :=
  ⟨by decide, citationRewrites_close_followed_by_paren "x]]".toList "x".toList _ (by decide)⟩

end DanswerWeb.Message
