import DanswerWeb.Message.CodeBlock
import DanswerWeb.Text.Replace

namespace DanswerWeb.Message

open DanswerWeb.Text

/-- `/```\w+/` read at the head of a text. -/
def languageTagAt : List Char → Option (Unit × List Char)
  | '`' :: '`' :: '`' :: c :: rest =>
    if isWordChar c then some ((), rest.dropWhile isWordChar) else none
  | _ => none

/-- `/```\w+/`. -/
def languageTag : Regex Char Unit where
  matchAt := languageTagAt
  consumes text marker rest found := by
    unfold languageTagAt at found
    split at found
    · next c more =>
      split at found
      · cases found
        exact ⟨'`' :: '`' :: '`' :: c :: more.takeWhile isWordChar, by simp,
          by simp [List.takeWhile_append_dropWhile]⟩
      · cases found
    · cases found

/-- `match.match(/```\w+/)` is truthy. -/
def hasLanguageTag (block : List Char) : Bool :=
  (languageTag.search block).isSome

/-- `match.replace("```", "```plaintext")`. -/
def plaintextFence (block : List Char) : List Char :=
  replaceFirst "```".toList "```plaintext".toList block

/-- One step of the reduce: an untagged match's first occurrence becomes its tagged text. -/
def tagFence (acc block : List Char) : List Char :=
  if hasLanguageTag block then acc else replaceFirst block (plaintextFence block) acc

/-- `matches.reduce(..., processed)` over `matches = processed.match(codeBlockRegex)`. -/
def tagFences (processed : List Char) : List Char :=
  (codeBlocks processed).foldl tagFence processed

/-- Lines 145 to 159 of `processContent`: the tagging, then LaTeX unless a block is left open. -/
def fenceStage (preprocessLaTeX : List Char → List Char) (processed : List Char) : List Char :=
  match (codeBlocks processed).getLast? with
  | none => processed
  | some lastMatch =>
    if !lastMatch.isEmpty && !"```".toList.isSuffixOf lastMatch then preprocessLaTeX (tagFences processed)
    else tagFences processed

/-- The helpers `processContent` imports from `../utils/thinkingTokens`. -/
structure ThinkingTokens where
  hasCompletedThinkingTokens : List Char → Bool
  hasPartialThinkingTokens : List Char → Bool
  removeThinkingTokens : List Char → List Char

/-- `processContent` on a string, with the helpers it imports as parameters. -/
def processContent (thinking : ThinkingTokens) (preprocessLaTeX : List Char → List Char)
    (incoming : List Char) : List Char :=
  let processed :=
    if thinking.hasCompletedThinkingTokens incoming || thinking.hasPartialThinkingTokens incoming then
      thinking.removeThinkingTokens incoming
    else incoming
  preprocessLaTeX (citationRewrites parseIntText (fenceStage preprocessLaTeX processed))

/-- The first block found follows a skipped front, opens with ```, and the scan resumes after. -/
theorem codeBlocks_eq_cons {text block : List Char} {more : List (List Char)}
    (found : codeBlocks text = block :: more) :
    ∃ front after, text = front ++ block ++ after ∧ codeBlocks after = more ∧
      ∃ rest, block = "```".toList ++ rest := by
  obtain ⟨front, start, after, rfl, matched, resumed⟩ := Regex.matchAll_eq_cons found
  obtain ⟨opening, shape⟩ := codeBlockAt_shape matched
  exact ⟨front, after, by rw [shape, List.append_assoc], resumed, opening⟩

theorem plaintextFence_ticks (rest : List Char) :
    plaintextFence ("```".toList ++ rest) = "```plaintext".toList ++ rest := by
  have noDollar : '$' ∉ "```plaintext".toList := by decide
  rw [plaintextFence, replaceFirst_of_splitAtFirst (splitAtFirst_append rest),
    substitution_of_not_mem noDollar]
  rfl

/-- `result` is `text` with `plaintext` written right after a ```, `count` times over. -/
inductive PlaintextInserted (text : List Char) : Nat → List Char → Prop
  | refl : PlaintextInserted text 0 text
  | insert {count : Nat} {before after : List Char} :
    PlaintextInserted text count (before ++ "```".toList ++ after) →
      PlaintextInserted text (count + 1) (before ++ "```plaintext".toList ++ after)

/-- A step on an untagged block found before `after` writes `plaintext` after a ```. -/
theorem tagFence_inserted {s acc front after rest : List Char} {count : Nat}
    (shape : acc = front ++ ("```".toList ++ rest) ++ after) (noDollar : '$' ∉ rest)
    (untagged : hasLanguageTag ("```".toList ++ rest) = false)
    (inserted : PlaintextInserted s count acc) :
    ∃ front', tagFence acc ("```".toList ++ rest) = front' ++ after ∧
      PlaintextInserted s (count + 1) (tagFence acc ("```".toList ++ rest)) := by
  obtain ⟨before, middle, found⟩ : ∃ before middle,
      splitAtFirst ("```".toList ++ rest) acc = some (before, middle ++ after) := by
    rw [shape]
    exact splitAtFirst_of_occurrence after front
  have noDollar' : '$' ∉ "```plaintext".toList ++ rest := fun mem =>
    (List.mem_append.mp mem).elim (by decide) noDollar
  have step : tagFence acc ("```".toList ++ rest) =
      before ++ "```plaintext".toList ++ (rest ++ middle ++ after) := by
    rw [tagFence, if_neg (by rw [untagged]; decide), replaceFirst_of_splitAtFirst found, plaintextFence_ticks,
      substitution_of_not_mem noDollar']
    simp
  have opened : acc = before ++ "```".toList ++ (rest ++ middle ++ after) := by
    rw [splitAtFirst_eq_some found]
    simp
  refine ⟨before ++ "```plaintext".toList ++ rest ++ middle, by rw [step]; simp, ?_⟩
  rw [step]
  exact .insert (opened ▸ inserted)

/-- The reduce over the blocks of a suffix `t` writes `plaintext` once per untagged block. -/
theorem foldl_tagFence_inserted {s : List Char} :
    ∀ (blocks : List (List Char)) {t acc front : List Char} {count : Nat},
      codeBlocks t = blocks → acc = front ++ t → '$' ∉ t → PlaintextInserted s count acc →
      PlaintextInserted s (count + blocks.countP fun block => !hasLanguageTag block)
        (blocks.foldl tagFence acc)
  | [], _, _, _, _, _, _, _, inserted => inserted
  | block :: more, t, acc, front, count, scan, start, noDollar, inserted => by
    subst start
    obtain ⟨skipped, after, rfl, resumed, rest, rfl⟩ := codeBlocks_eq_cons scan
    have noDollar' : '$' ∉ after := fun mem => noDollar (List.mem_append_right _ mem)
    have shape : front ++ (skipped ++ ("```".toList ++ rest) ++ after) =
        front ++ skipped ++ ("```".toList ++ rest) ++ after := by simp
    rw [List.foldl_cons, List.countP_cons]
    cases tagged : hasLanguageTag ("```".toList ++ rest)
    · obtain ⟨front', next, inserted'⟩ :=
        tagFence_inserted shape (fun mem => noDollar (by simp [mem])) tagged inserted
      have tail := foldl_tagFence_inserted more resumed next noDollar' inserted'
      simp only [tagged, Bool.not_false, if_true]
      rwa [Nat.add_comm (List.countP _ more), ← Nat.add_assoc]
    · have tail := foldl_tagFence_inserted more resumed shape noDollar' inserted
      rw [tagFence, if_pos tagged]
      simpa [tagged] using tail

/-- Without a `$`, the tagging writes `plaintext` after a ``` once per untagged match. -/
theorem tagFences_inserts_plaintext (s : List Char) (noDollar : '$' ∉ s) :
    PlaintextInserted s ((codeBlocks s).countP fun block => !hasLanguageTag block) (tagFences s) := by
  have run := foldl_tagFence_inserted (codeBlocks s) rfl (List.nil_append s).symm noDollar .refl
  rwa [Nat.zero_add] at run

theorem tagFences_inserts_plaintext_mixed :
    '$' ∉ "```\nx```\n```py\ny```".toList ∧
      PlaintextInserted "```\nx```\n```py\ny```".toList
        ((codeBlocks "```\nx```\n```py\ny```".toList).countP fun block => !hasLanguageTag block)
        (tagFences "```\nx```\n```py\ny```".toList) :=
  ⟨by decide, tagFences_inserts_plaintext _ (by decide)⟩

/-- A lone untagged block after a backtick-free front is tagged, via `GetSubstitution`. -/
theorem tagFences_single_block (s front block back : List Char) (split : s = front ++ block ++ back)
    (noTick : '`' ∉ front) (single : codeBlocks s = [block])
    (untagged : hasLanguageTag block = false) :
    tagFences s =
      front ++ "```plaintext".toList ++ substitution block front back (block.drop 3) ++ back := by
  obtain ⟨-, -, -, -, rest, rfl⟩ := codeBlocks_eq_cons single
  have head : ("```".toList ++ rest).head? = some '`' := rfl
  have found : splitAtFirst ("```".toList ++ rest) s = some (front, back) := by
    rw [split, List.append_assoc, splitAtFirst_append_of_head head noTick, splitAtFirst_append]
    simp
  have noDollar : '$' ∉ "```plaintext".toList := by decide
  rw [tagFences, single, List.foldl_cons, List.foldl_nil, tagFence, if_neg (by rw [untagged]; decide),
    replaceFirst_of_splitAtFirst found, plaintextFence_ticks, substitution_append_of_not_mem noDollar]
  simp

/-- After a front without a backtick, `$&` in an untagged block comes out as the block itself. -/
theorem tagFences_single_block_dollar :
    tagFences "see ```\n$&```".toList = "see ```plaintext\n```\n$&``````".toList :=
  (tagFences_single_block "see ```\n$&```".toList "see ".toList "```\n$&```".toList [] (by decide)
    (by decide) (by decide) (by decide)).trans (by decide)

/-- The untagged match is the final bare ```, but the replace tags the python block's opening. -/
theorem tagFences_tags_earlier_fence :
    tagFences "```python\nx```\n```".toList = "```plaintextpython\nx```\n```".toList := by
  decide

end DanswerWeb.Message
