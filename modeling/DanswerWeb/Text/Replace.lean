import Mathlib.Data.List.Basic

namespace DanswerWeb.Text

/-- The first occurrence of `pattern` in a text: the text before it and the text after it. -/
def splitAtFirst (pattern text : List Char) : Option (List Char × List Char) :=
  if pattern.isPrefixOf text then some ([], text.drop pattern.length)
  else
    match text with
    | [] => none
    | c :: rest => (splitAtFirst pattern rest).map fun found => (c :: found.1, found.2)

/-- `GetSubstitution` for a string pattern, which has no groups: `$$`, `$&`, `` $` ``, `$'`. -/
def substitution (matched before after : List Char) : List Char → List Char
  | [] => []
  | '$' :: d :: rest =>
    if d = '$' then '$' :: substitution matched before after rest
    else if d = '&' then matched ++ substitution matched before after rest
    else if d = '`' then before ++ substitution matched before after rest
    else if d = '\'' then after ++ substitution matched before after rest
    else '$' :: d :: substitution matched before after rest
  | c :: rest => c :: substitution matched before after rest

/-- `text.replace(pattern, replacement)` with a string `pattern`. -/
def replaceFirst (pattern replacement text : List Char) : List Char :=
  match splitAtFirst pattern text with
  | some (before, after) => before ++ substitution pattern before after replacement ++ after
  | none => text

variable {pattern : List Char}

theorem splitAtFirst_eq_some :
    ∀ {text before after : List Char}, splitAtFirst pattern text = some (before, after) →
      text = before ++ pattern ++ after
  | text, before, after, found => by
    unfold splitAtFirst at found
    split at found
    · next start =>
      cases found
      obtain ⟨rest, rfl⟩ := List.isPrefixOf_iff_prefix.mp start
      simp
    · split at found
      · cases found
      · next c rest =>
        obtain ⟨⟨before', after'⟩, inner, same⟩ := Option.map_eq_some'.mp found
        cases same
        simp [splitAtFirst_eq_some inner]

theorem splitAtFirst_append (rest : List Char) : splitAtFirst pattern (pattern ++ rest) = some ([], rest) := by
  unfold splitAtFirst
  rw [if_pos (List.isPrefixOf_iff_prefix.mpr (List.prefix_append _ _))]
  simp

/-- A front without the first character of the pattern is passed over. -/
theorem splitAtFirst_append_of_head {h : Char} (head : pattern.head? = some h) :
    ∀ {front : List Char}, h ∉ front → ∀ rest, splitAtFirst pattern (front ++ rest) =
      (splitAtFirst pattern rest).map fun found => (front ++ found.1, found.2)
  | [], _, rest => by simp
  | c :: front, absent, rest => by
    have tail := splitAtFirst_append_of_head head (fun mem => absent (List.mem_cons_of_mem c mem)) rest
    have notPrefix : pattern.isPrefixOf (c :: (front ++ rest)) = false := by
      obtain ⟨more, rfl⟩ := List.head?_eq_some_iff.mp head
      have other : h ≠ c := fun same => absent (same ▸ List.mem_cons_self h front)
      simp [List.isPrefixOf, other]
    rw [List.cons_append, splitAtFirst, if_neg (by simp [notPrefix]), tail, Option.map_map]
    rfl

/-- A text holding the pattern has a first occurrence, ending no later than the known one. -/
theorem splitAtFirst_of_occurrence (rest : List Char) :
    ∀ front, ∃ before middle,
      splitAtFirst pattern (front ++ pattern ++ rest) = some (before, middle ++ rest)
  | [] => ⟨[], [], by simpa using splitAtFirst_append rest⟩
  | c :: front => by
    obtain ⟨before, middle, found⟩ := splitAtFirst_of_occurrence rest front
    rw [List.cons_append, List.cons_append]
    unfold splitAtFirst
    split
    · have long : pattern.length ≤ (c :: (front ++ pattern)).length := by simp; omega
      exact ⟨[], (c :: (front ++ pattern)).drop pattern.length,
        by rw [← List.drop_append_of_le_length long]; rfl⟩
    · exact ⟨c :: before, middle, by simp only [found]; rfl⟩

variable {matched before after : List Char}

@[simp] theorem substitution_nil : substitution matched before after [] = [] := rfl

theorem substitution_cons_of_ne {c : Char} (other : c ≠ '$') (rest : List Char) :
    substitution matched before after (c :: rest) = c :: substitution matched before after rest := by
  cases rest <;> simp [substitution, other]

/-- A replacement without a dollar sign is inserted as it is. -/
theorem substitution_append_of_not_mem {front : List Char} (noDollar : '$' ∉ front) (rest : List Char) :
    substitution matched before after (front ++ rest) = front ++ substitution matched before after rest := by
  induction front with
  | nil => rfl
  | cons c front tail =>
    rw [List.cons_append, substitution_cons_of_ne (fun same => noDollar (same ▸ List.mem_cons_self c front)),
      tail (fun mem => noDollar (List.mem_cons_of_mem c mem)), List.cons_append]

theorem substitution_of_not_mem {text : List Char} (noDollar : '$' ∉ text) :
    substitution matched before after text = text := by
  simpa using @substitution_append_of_not_mem matched before after text noDollar []

variable {replacement : List Char}

theorem replaceFirst_of_splitAtFirst {text : List Char} (found : splitAtFirst pattern text = some (before, after)) :
    replaceFirst pattern replacement text = before ++ substitution pattern before after replacement ++ after := by
  rw [replaceFirst, found]

end DanswerWeb.Text
