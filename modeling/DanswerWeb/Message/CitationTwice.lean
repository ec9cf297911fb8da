import DanswerWeb.Message.Citation

namespace DanswerWeb.Message

open DanswerWeb.Text

theorem head_mem_of_suffix {part whole : List Char} (suffix : part <:+ whole) (nonempty : part ≠ []) :
    ∃ c rest, part = c :: rest ∧ c ∈ whole := by
  obtain ⟨c, rest, rfl⟩ := List.exists_cons_of_ne_nil nonempty
  exact ⟨c, rest, rfl, suffix.subset (List.mem_cons_self c rest)⟩

/-- A nonempty end of `]]()` starts no tag and no brace citation. -/
theorem linkEnd_starts_nothing {part : List Char} (suffix : part <:+ "]]()".toList)
    (nonempty : part ≠ []) (after : List Char) :
    citationTagAt (part ++ after) = none ∧ braceCitationAt (part ++ after) = none := by
  obtain ⟨c, rest, rfl, mem⟩ := head_mem_of_suffix suffix nonempty
  have notOpen : c ≠ '[' ∧ c ≠ '{' := by
    simp only [String.toList, List.mem_cons, List.mem_singleton] at mem
    rcases mem with rfl | rfl | rfl | rfl | mem <;> simp_all
  exact ⟨citationTagAt_cons_of_ne _ notOpen.1, braceCitationAt_cons_of_ne _ notOpen.2⟩

theorem tagBody_chars {kind : Char} {digits : List Char} (isKind : kind = 'Q' ∨ kind = 'D')
    (digitsOnly : ∀ c ∈ digits, c.isDigit) : ∀ c ∈ kind :: digits, c ≠ '[' ∧ c ≠ ']' := by
  intro c mem
  rcases List.mem_cons.mp mem with rfl | mem
  · rcases isKind with rfl | rfl <;> decide
  · have digit := digitsOnly c mem
    exact ⟨fun same => by simp [same] at digit, fun same => by simp [same] at digit⟩

theorem braceBody_chars {digits : List Char} (digitsOnly : ∀ c ∈ digits, c.isDigit) :
    ∀ c ∈ '{' :: digits ++ ['}', '}'], c ≠ '[' ∧ c ≠ ']' := by
  intro c mem
  rcases List.mem_cons.mp mem with rfl | mem
  · decide
  rcases List.mem_append.mp mem with mem | mem
  · have digit := digitsOnly c mem
    exact ⟨fun same => by simp [same] at digit, fun same => by simp [same] at digit⟩
  · simp only [List.mem_cons, List.mem_singleton, List.not_mem_nil, or_false] at mem
    rcases mem with rfl | rfl <;> decide

/-- A citation tag at a suffix of a text where the tag regex matches nowhere is impossible. -/
theorem tag_absent {text more digits : List Char} {kind : Char} (noTag : citationTag.Misses text)
    (isKind : kind = 'Q' ∨ kind = 'D') (nonempty : digits ≠ []) (digitsOnly : ∀ c ∈ digits, c.isDigit)
    (suffix : '[' :: kind :: digits ++ ']' :: more <:+ text) : False := by
  have tagged : citationTagAt ('[' :: kind :: digits ++ ']' :: more) = some ((kind, digits), more) :=
    citationTagAt_eq_some.mpr ⟨isKind, nonempty, digitsOnly, rfl⟩
  have clear : citationTagAt ('[' :: kind :: digits ++ ']' :: more) = none := noTag _ suffix
  rw [clear] at tagged
  cases tagged

/-- Rewriting bare `]]` creates no citation tag. -/
theorem citationTag_misses_closeBrackets {text : List Char} (noTag : citationTag.Misses text) :
    citationTag.Misses (closeBrackets text) := by
  apply Regex.misses_replace _ citationTag
  · intro _ part after suffix nonempty
    exact (linkEnd_starts_nothing suffix nonempty after).1
  · intro c rest suffix _
    cases found : citationTagAt (c :: closeBrackets rest) with
    | none => exact found
    | some result =>
      obtain ⟨⟨kind, digits⟩, after⟩ := result
      obtain ⟨isKind, nonempty, digitsOnly, shape⟩ := citationTagAt_eq_some.mp found
      injection shape with opening output
      subst opening
      obtain ⟨more, rfl, closed⟩ := Regex.replace_eq_append (fun _ => "]]()".toList) (fun _ => rfl)
        (kind :: digits) (']' :: after) (by simpa using output)
        (fun mem => (tagBody_chars isKind digitsOnly _ mem).2 rfl)
      have start := closeBrackets_head? more
      rw [show closeBrackets more = ']' :: after from closed] at start
      obtain ⟨more', rfl⟩ := List.head?_eq_some_iff.mp start.symm
      exact (tag_absent noTag isKind nonempty digitsOnly (by simpa using suffix)).elim

/-- Rewriting bare `]]` creates no brace citation. -/
theorem braceCitation_misses_closeBrackets {text : List Char} (noBrace : braceCitation.Misses text) :
    braceCitation.Misses (closeBrackets text) := by
  apply Regex.misses_replace _ braceCitation
  · intro _ part after suffix nonempty
    exact (linkEnd_starts_nothing suffix nonempty after).2
  · intro c rest suffix _
    cases found : braceCitationAt (c :: closeBrackets rest) with
    | none => exact found
    | some result =>
      obtain ⟨digits, after⟩ := result
      obtain ⟨nonempty, digitsOnly, shape⟩ := braceCitationAt_eq_some.mp found
      injection shape with opening output
      subst opening
      obtain ⟨more, rfl, -⟩ := Regex.replace_eq_append (fun _ => "]]()".toList) (fun _ => rfl)
        ('{' :: digits ++ ['}', '}']) after (by simpa using output)
        (fun mem => (braceBody_chars digitsOnly _ mem).2 rfl)
      have braced : braceCitationAt ('{' :: '{' :: digits ++ '}' :: '}' :: more) = some (digits, more) :=
        braceCitationAt_eq_some.mpr ⟨nonempty, digitsOnly, rfl⟩
      have clear : braceCitationAt ('{' :: '{' :: digits ++ '}' :: '}' :: more) = none :=
        noBrace ('{' :: '{' :: digits ++ '}' :: '}' :: more) (by simpa using suffix)
      rw [clear] at braced
      cases braced

/-- Every `]]` the bracket rewrite leaves opens a link target, so it misses its own output. -/
theorem bareClose_misses_closeBrackets (text : List Char) : bareClose.Misses (closeBrackets text) := by
  intro rest suffix
  cases found : bareCloseAt rest with
  | none => exact found
  | some result =>
    obtain ⟨⟨⟩, after⟩ := result
    obtain ⟨rfl, notLink⟩ := bareCloseAt_eq_some.mp found
    obtain ⟨before, split⟩ := suffix
    exact absurd (closeBrackets_no_bare text before after split.symm) notLink

section

variable {numberText : List Char → List Char} (plain : PlainNumberText numberText)
include plain

/-- A nonempty end of a rewritten brace citation starts no tag and no brace citation. -/
theorem braceLinkEnd_starts_nothing {digits part : List Char}
    (suffix : part <:+ braceLink numberText digits) (nonempty : part ≠ [])
    (after : List Char) :
    citationTagAt (part ++ after) = none ∧ braceCitationAt (part ++ after) = none := by
  have notOpen : ∀ c ∈ numberText digits ++ "]]()".toList, c ≠ '[' ∧ c ≠ '{' := by
    intro c mem
    rcases List.mem_append.mp mem with inText | inEnd
    · have other := plain digits c inText
      exact ⟨fun same => other (by simp [same, markupChars]),
        fun same => other (by simp [same, markupChars])⟩
    · simp only [String.toList, List.mem_cons, List.mem_singleton] at inEnd
      rcases inEnd with rfl | rfl | rfl | rfl | inEnd <;> simp_all
  change part <:+ '[' :: '[' :: (numberText digits ++ "]]()".toList) at suffix
  rcases List.suffix_cons_iff.mp suffix with rfl | inner
  · exact ⟨citationTagAt_of_kind _ (by decide), braceCitationAt_cons_of_ne _ (by decide)⟩
  rcases List.suffix_cons_iff.mp inner with rfl | inner
  · refine ⟨?_, braceCitationAt_cons_of_ne _ (by decide)⟩
    cases text : numberText digits with
    | nil => exact citationTagAt_of_kind _ (by decide)
    | cons first more =>
      have other := plain digits first (by simp [text])
      exact citationTagAt_of_kind _ ⟨fun same => other (by simp [same, markupChars]),
        fun same => other (by simp [same, markupChars])⟩
  · obtain ⟨c, rest, rfl, mem⟩ := head_mem_of_suffix inner nonempty
    exact ⟨citationTagAt_cons_of_ne _ (notOpen c mem).1, braceCitationAt_cons_of_ne _ (notOpen c mem).2⟩

/-- Rewriting brace citations creates no citation tag. -/
theorem citationTag_misses_replaceBraceCitations {text : List Char}
    (noTag : citationTag.Misses text) :
    citationTag.Misses (replaceBraceCitations numberText text) := by
  apply Regex.misses_replace _ citationTag
  · intro digits part after suffix nonempty
    exact (braceLinkEnd_starts_nothing plain suffix nonempty after).1
  · intro c rest suffix _
    cases found : citationTagAt (c :: replaceBraceCitations numberText rest) with
    | none => exact found
    | some result =>
      obtain ⟨⟨kind, digits⟩, after⟩ := result
      obtain ⟨isKind, nonempty, digitsOnly, shape⟩ := citationTagAt_eq_some.mp found
      injection shape with opening output
      subst opening
      have noOpen : '[' ∉ kind :: digits ++ [']'] := fun mem => by
        have split : '[' ∈ (kind :: digits) ++ [']'] := mem
        rcases List.mem_append.mp split with inBody | inEnd
        · exact (tagBody_chars isKind digitsOnly _ inBody).1 rfl
        · simp at inEnd
      obtain ⟨more, rfl, -⟩ := Regex.replace_eq_append (braceLink numberText) (fun _ => rfl)
        (kind :: digits ++ [']']) after (by simpa using output) noOpen
      exact (tag_absent noTag isKind nonempty digitsOnly (by simpa using suffix)).elim

/-- The output of the brace rewrite holds no brace citation. -/
theorem braceCitation_misses_replaceBraceCitations (text : List Char) :
    braceCitation.Misses (replaceBraceCitations numberText text) := by
  apply Regex.misses_replace _ braceCitation
  · intro digits part after suffix nonempty
    exact (braceLinkEnd_starts_nothing plain suffix nonempty after).2
  · intro c rest _ missed
    cases found : braceCitationAt (c :: replaceBraceCitations numberText rest) with
    | none => exact found
    | some result =>
      obtain ⟨digits, after⟩ := result
      obtain ⟨nonempty, digitsOnly, shape⟩ := braceCitationAt_eq_some.mp found
      injection shape with opening output
      subst opening
      obtain ⟨more, rfl, -⟩ := Regex.replace_eq_append (braceLink numberText) (fun _ => rfl)
        ('{' :: digits ++ ['}', '}']) after (by simpa using output)
        (fun mem => (braceBody_chars digitsOnly _ mem).1 rfl)
      have braced : braceCitationAt ('{' :: '{' :: digits ++ '}' :: '}' :: more) = some (digits, more) :=
        braceCitationAt_eq_some.mpr ⟨nonempty, digitsOnly, rfl⟩
      rw [(by simpa using missed : braceCitationAt ('{' :: '{' :: digits ++ '}' :: '}' :: more) = none)]
        at braced
      cases braced

/-- Without a citation tag, none of the three regexes matches the output of the rewrites. -/
theorem citationRewrites_misses {s : List Char} (noTag : citationTag.Misses s) :
    citationTag.Misses (citationRewrites numberText s) ∧
      braceCitation.Misses (citationRewrites numberText s) ∧
        bareClose.Misses (citationRewrites numberText s) := by
  have tagsKept : replaceCitationTags numberText s = s := Regex.replace_eq_self _ noTag
  rw [citationRewrites, tagsKept]
  exact ⟨citationTag_misses_closeBrackets (citationTag_misses_replaceBraceCitations plain noTag),
    braceCitation_misses_closeBrackets (braceCitation_misses_replaceBraceCitations plain s),
    bareClose_misses_closeBrackets _⟩

end

/-- A second run of the rewrites wraps a rewritten `[Q1]` again. -/
theorem citationRewrites_twice_ne_once :
    citationRewrites parseIntText (citationRewrites parseIntText "[Q1]".toList) ≠
      citationRewrites parseIntText "[Q1]".toList := by
  decide

/-- Without a `[Q<digits>]` or `[D<digits>]` tag, a second run of the rewrites changes nothing. -/
theorem citationRewrites_idempotent_without_tag (s : List Char)
    (noTag : ∀ rest, rest <:+ s → citationTagAt rest = none) :
    citationRewrites parseIntText (citationRewrites parseIntText s) = citationRewrites parseIntText s := by
  obtain ⟨tagFree, braceFree, bracketFree⟩ := citationRewrites_misses parseIntText_plain noTag
  conv_lhs => rw [citationRewrites, replaceCitationTags, Regex.replace_eq_self _ tagFree,
    replaceBraceCitations, Regex.replace_eq_self _ braceFree, closeBrackets,
    Regex.replace_eq_self _ bracketFree]

theorem citationRewrites_idempotent_on_braces :
    (∀ rest, rest <:+ "{{07}}]]".toList → citationTagAt rest = none) ∧
      citationRewrites parseIntText (citationRewrites parseIntText "{{07}}]]".toList) =
        citationRewrites parseIntText "{{07}}]]".toList := by
  have noTag : ∀ rest, rest <:+ "{{07}}]]".toList → citationTagAt rest = none :=
    citationTag.misses_of_forall_drop (by decide)
  exact ⟨noTag, citationRewrites_idempotent_without_tag _ noTag⟩

end DanswerWeb.Message
