import DanswerWeb.Message.Citation

namespace DanswerWeb.Message

open DanswerWeb.Text

/-- JavaScript's `\w`: an ASCII letter, digit or underscore. -/
def isWordChar (c : Char) : Bool := c.isAlphanum || c == '_'

/-- The lazy `[\s\S]*?```` of `codeBlockRegex`: the text before the first ``` and after it. -/
def splitAtFence : List Char → Option (List Char × List Char)
  | [] => none
  | c :: rest =>
    if c = '`' ∧ rest.take 2 = ['`', '`'] then some ([], rest.drop 2)
    else (splitAtFence rest).map fun found => (c :: found.1, found.2)

/-- `(\w*)\n[\s\S]*?````, the first alternative after its opening ```: the match and the rest. -/
def closedBlockAt (text : List Char) : Option (List Char × List Char) :=
  (runUntil isWordChar '\n' text).bind fun line =>
    (splitAtFence line.2).map fun found => (line.1 ++ '\n' :: found.1 ++ "```".toList, found.2)

/-- `codeBlockRegex` read at the head of a text; an unclosed opening matches to the end. -/
def codeBlockAt : List Char → Option (List Char × List Char)
  | '`' :: '`' :: '`' :: rest =>
    match closedBlockAt rest with
    | some found => some ("```".toList ++ found.1, found.2)
    | none => some ("```".toList ++ rest, [])
  | _ => none

theorem take_two_eq_ticks {rest : List Char} :
    rest.take 2 = ['`', '`'] ↔ ∃ after, rest = '`' :: '`' :: after := by
  rcases rest with _ | ⟨a, _ | ⟨b, after⟩⟩ <;> simp

theorem splitAtFence_eq_some :
    ∀ {body inner after : List Char}, splitAtFence body = some (inner, after) →
      body = inner ++ "```".toList ++ after
  | [], _, _, found => by simp [splitAtFence] at found
  | c :: rest, inner, after, found => by
    simp only [splitAtFence] at found
    split at found
    · next opening =>
      obtain ⟨rfl, ticks⟩ := opening
      obtain ⟨more, rfl⟩ := take_two_eq_ticks.mp ticks
      cases found
      rfl
    · obtain ⟨⟨inner', after'⟩, inner_found, same⟩ := Option.map_eq_some'.mp found
      cases same
      simp [splitAtFence_eq_some inner_found]

theorem closedBlockAt_eq_some {text block after : List Char}
    (found : closedBlockAt text = some (block, after)) : text = block ++ after := by
  obtain ⟨⟨tag, body⟩, line, rest⟩ := Option.bind_eq_some.mp found
  obtain ⟨⟨inner, after'⟩, split, same⟩ := Option.map_eq_some'.mp rest
  cases same
  obtain ⟨shape, -⟩ := runUntil_eq_some line
  have closing : body = inner ++ "```".toList ++ after' := splitAtFence_eq_some split
  simp [shape, closing]

/-- A match of `codeBlockRegex` is an opening ``` and a closed block or the rest of the text. -/
theorem codeBlockAt_eq_some {text block after : List Char} :
    codeBlockAt text = some (block, after) ↔ ∃ rest, text = "```".toList ++ rest ∧
      ((∃ found, closedBlockAt rest = some found ∧ block = "```".toList ++ found.1 ∧
        after = found.2) ∨ (closedBlockAt rest = none ∧ block = text ∧ after = [])) := by
  constructor
  · intro found
    unfold codeBlockAt at found
    split at found
    · next rest =>
      refine ⟨rest, rfl, ?_⟩
      split at found
      · next found' closed => cases found; exact .inl ⟨found', closed, rfl, rfl⟩
      · next closed => cases found; exact .inr ⟨closed, rfl, rfl⟩
    · cases found
  · rintro ⟨rest, rfl, ⟨found, closed, rfl, rfl⟩ | ⟨closed, rfl, rfl⟩⟩
    · simp [codeBlockAt, closed]
    · simp [codeBlockAt, closed]

theorem codeBlockAt_shape {text block after : List Char}
    (found : codeBlockAt text = some (block, after)) :
    (∃ rest, block = "```".toList ++ rest) ∧ text = block ++ after := by
  obtain ⟨rest, rfl, ⟨found, closed, rfl, rfl⟩ | ⟨closed, rfl, rfl⟩⟩ := codeBlockAt_eq_some.mp found
  · exact ⟨⟨_, rfl⟩, by simp [closedBlockAt_eq_some closed]⟩
  · exact ⟨⟨rest, rfl⟩, by simp⟩

/-- `codeBlockRegex`. -/
def codeBlockRegex : Regex Char (List Char) where
  matchAt := codeBlockAt
  consumes _ block _ found := by
    obtain ⟨⟨rest, rfl⟩, shape⟩ := codeBlockAt_shape found
    exact ⟨_, by simp, shape⟩

/-- `processed.match(codeBlockRegex)`: the code blocks of a text, in order. -/
def codeBlocks : List Char → List (List Char) :=
  codeBlockRegex.matchAll

@[simp] theorem codeBlocks_nil : codeBlocks [] = [] := rfl

theorem codeBlocks_of_codeBlockAt {text block after : List Char}
    (found : codeBlockAt text = some (block, after)) : codeBlocks text = block :: codeBlocks after :=
  Regex.matchAll_of_matchAt found

theorem codeBlocks_cons_of_codeBlockAt {c : Char} {rest : List Char}
    (missed : codeBlockAt (c :: rest) = none) : codeBlocks (c :: rest) = codeBlocks rest :=
  Regex.matchAll_cons_of_matchAt missed

theorem splitAtFence_ticks (after : List Char) :
    splitAtFence ('`' :: '`' :: '`' :: after) = some ([], after) := by
  simp [splitAtFence]

theorem splitAtFence_cons {c : Char} {rest : List Char}
    (noFence : ¬ (c = '`' ∧ ∃ after, rest = '`' :: '`' :: after)) :
    splitAtFence (c :: rest) = (splitAtFence rest).map fun found => (c :: found.1, found.2) := by
  rw [splitAtFence, if_neg (by rwa [take_two_eq_ticks])]

/-- A front without a backtick is passed over by the fence search. -/
theorem splitAtFence_append {front : List Char} (noTick : '`' ∉ front) (rest : List Char) :
    splitAtFence (front ++ rest) =
      (splitAtFence rest).map fun found => (front ++ found.1, found.2) := by
  induction front with
  | nil => simp
  | cons c front tail =>
    have other : c ≠ '`' := fun same => noTick (same ▸ List.mem_cons_self c front)
    rw [List.cons_append, splitAtFence_cons (fun opening => other opening.1),
      tail (fun mem => noTick (List.mem_cons_of_mem c mem)), Option.map_map]
    rfl

theorem codeBlockAt_of_not_ticks {text : List Char} (noFence : ∀ rest, text ≠ "```".toList ++ rest) :
    codeBlockAt text = none := by
  cases found : codeBlockAt text with
  | none => rfl
  | some result =>
    obtain ⟨rest, opening, -⟩ := codeBlockAt_eq_some.mp found
    exact absurd opening (noFence rest)

/-- A front without a backtick holds no code block. -/
theorem codeBlocks_append {front : List Char} (noTick : '`' ∉ front) (rest : List Char) :
    codeBlocks (front ++ rest) = codeBlocks rest := by
  induction front with
  | nil => rfl
  | cons c front tail =>
    have other : c ≠ '`' := fun same => noTick (same ▸ List.mem_cons_self c front)
    rw [List.cons_append, codeBlocks_cons_of_codeBlockAt
      (codeBlockAt_of_not_ticks fun rest same => other (List.cons.inj same).1)]
    exact tail (fun mem => noTick (List.mem_cons_of_mem c mem))

/-- A backtick or a line break: the characters `codeBlockRegex` reads besides word characters. -/
def IsFenceChar (c : Char) : Prop := c = '`' ∨ c = '\n'

instance : DecidablePred IsFenceChar := fun c => inferInstanceAs (Decidable (c = '`' ∨ c = '\n'))

/-- Every text is a front without backticks or line breaks, then nothing or one of them. -/
theorem exists_fenceFree_front (isFence : Char → Prop) [DecidablePred isFence] :
    ∀ text : List Char, ∃ front back, text = front ++ back ∧ (∀ c ∈ front, ¬ isFence c) ∧
      (back = [] ∨ ∃ c rest, back = c :: rest ∧ isFence c)
  | [] => ⟨[], [], rfl, by simp, .inl rfl⟩
  | c :: rest => by
    by_cases fence : isFence c
    · exact ⟨[], c :: rest, rfl, by simp, .inr ⟨c, rest, rfl, fence⟩⟩
    · obtain ⟨front, back, rfl, clear, ending⟩ := exists_fenceFree_front isFence rest
      exact ⟨c :: front, back, rfl, by simpa [fence] using clear, ending⟩

/-- A rewrite that keeps backticks and line breaks and rewrites each word between them alone. -/
structure KeepsFences (f : List Char → List Char) : Prop where
  nil : f [] = []
  split : ∀ before after c, IsFenceChar c → f (before ++ c :: after) = f before ++ c :: f after
  keeps : ∀ text c, IsFenceChar c → c ∉ text → c ∉ f text
  nonempty : ∀ text, text ≠ [] → f text ≠ []
  word : ∀ text, (∀ c ∈ f text, isWordChar c) ↔ ∀ c ∈ text, isWordChar c

theorem ending_of_tick {back : List Char} (ending : back = [] ∨ ∃ c rest, back = c :: rest ∧ c = '`') :
    back = [] ∨ ∃ c rest, back = c :: rest ∧ IsFenceChar c :=
  ending.imp id fun ⟨c, rest, shape, tick⟩ => ⟨c, rest, shape, .inl tick⟩

namespace KeepsFences

variable {f : List Char → List Char} (keeps : KeepsFences f)
include keeps

theorem cons {c : Char} (fence : IsFenceChar c) (rest : List Char) : f (c :: rest) = c :: f rest := by
  simpa [keeps.nil] using keeps.split [] rest c fence

theorem append_ticks (front : List Char) : f (front ++ ['`', '`', '`']) = f front ++ ['`', '`', '`'] := by
  have tick : IsFenceChar '`' := .inl rfl
  rw [keeps.split _ _ _ tick, keeps.cons tick, keeps.cons tick, keeps.nil]

theorem append_of_back {front back : List Char}
    (ending : back = [] ∨ ∃ c rest, back = c :: rest ∧ IsFenceChar c) :
    f (front ++ back) = f front ++ f back := by
  rcases ending with rfl | ⟨c, rest, rfl, fence⟩
  · simp [keeps.nil]
  · rw [keeps.split _ _ _ fence, keeps.cons fence]

theorem fenceFree {text : List Char} (clear : ∀ c ∈ text, ¬ IsFenceChar c) :
    ∀ c ∈ f text, ¬ IsFenceChar c :=
  fun c mem fence => keeps.keeps text c fence (fun inText => clear c inText fence) mem

/-- A rewrite that keeps fences keeps a backtick at the head of a text, and no other head. -/
theorem head_tick (text : List Char) : (f text).head? = some '`' ↔ text.head? = some '`' := by
  cases text with
  | nil => simp [keeps.nil]
  | cons c rest =>
    by_cases fence : IsFenceChar c
    · simp [keeps.cons fence]
    obtain ⟨front, back, rfl, clear, ending⟩ := exists_fenceFree_front IsFenceChar rest
    have whole : ∀ d ∈ c :: front, ¬ IsFenceChar d := by simpa [fence] using clear
    rw [← List.cons_append, keeps.append_of_back ending]
    obtain ⟨d, more, start⟩ := List.exists_cons_of_ne_nil (keeps.nonempty (c :: front) (by simp))
    have notTick : d ≠ '`' := fun same =>
      keeps.fenceFree whole d (by simp [start]) (.inl same)
    have other : c ≠ '`' := fun same => fence (.inl same)
    simp [start, notTick, other]

theorem ticks_iff (text : List Char) :
    (∃ rest, f text = '`' :: '`' :: rest) ↔ ∃ rest, text = '`' :: '`' :: rest := by
  have tick : IsFenceChar '`' := .inl rfl
  constructor
  · rintro ⟨rest, output⟩
    obtain ⟨more, rfl⟩ := List.head?_eq_some_iff.mp ((keeps.head_tick text).mp (by simp [output]))
    rw [keeps.cons tick, List.cons.injEq] at output
    obtain ⟨more', rfl⟩ := List.head?_eq_some_iff.mp ((keeps.head_tick more).mp (by simp [output.2]))
    exact ⟨more', rfl⟩
  · rintro ⟨rest, rfl⟩
    exact ⟨f rest, by rw [keeps.cons tick, keeps.cons tick]⟩

/-- The lazy search for the closing ``` commutes with a rewrite that keeps fences. -/
theorem splitAtFence_map : ∀ n (body : List Char), body.length < n →
    splitAtFence (f body) = (splitAtFence body).map fun found => (f found.1, f found.2)
  | 0, _, small => absurd small (Nat.not_lt_zero _)
  | n + 1, body, small => by
    have tick : IsFenceChar '`' := .inl rfl
    obtain ⟨front, back, rfl, clear, ending⟩ := exists_fenceFree_front (· = '`') body
    have noTick : '`' ∉ front := fun mem => clear _ mem rfl
    have noTick' : '`' ∉ f front := keeps.keeps front '`' tick noTick
    rw [keeps.append_of_back (ending_of_tick ending), splitAtFence_append noTick,
      splitAtFence_append noTick', Option.map_map]
    rcases ending with rfl | ⟨c, more, rfl, rfl⟩
    · simp [keeps.nil, splitAtFence]
    by_cases fence : ∃ after, more = '`' :: '`' :: after
    · obtain ⟨after, rfl⟩ := fence
      rw [keeps.cons tick, keeps.cons tick, keeps.cons tick, splitAtFence_ticks, splitAtFence_ticks]
      simp
    · rw [keeps.cons tick, splitAtFence_cons (fun opening => fence opening.2),
        splitAtFence_cons (fun opening => fence ((keeps.ticks_iff more).mp opening.2)),
        splitAtFence_map n more (by simp at small; omega), Option.map_map, Option.map_map,
        Option.map_map]
      congr 1
      funext found
      simp [keeps.split _ _ _ tick]

/-- The first alternative of `codeBlockRegex` commutes with a rewrite that keeps fences. -/
theorem closedBlockAt_map (text : List Char) :
    closedBlockAt (f text) = (closedBlockAt text).map fun found => (f found.1, f found.2) := by
  have lineBreak : IsFenceChar '\n' := .inr rfl
  obtain ⟨front, back, rfl, clear, ending⟩ := exists_fenceFree_front IsFenceChar text
  have noBreak : '\n' ∉ front := fun mem => clear _ mem lineBreak
  have noBreak' : '\n' ∉ f front := keeps.keeps front '\n' lineBreak noBreak
  rw [keeps.append_of_back ending]
  by_cases allWord : ∀ c ∈ front, isWordChar c
  · have allWord' : ∀ c ∈ f front, isWordChar c := (keeps.word front).mpr allWord
    simp only [closedBlockAt, runUntil_append_of_run _ allWord noBreak,
      runUntil_append_of_run _ allWord' noBreak']
    rcases ending with rfl | ⟨c, more, rfl, fence⟩
    · simp [keeps.nil, runUntil]
    rw [keeps.cons fence]
    rcases fence with rfl | rfl
    · simp [runUntil, isWordChar]
    · simp only [runUntil, if_true, Option.map_some', Option.some_bind]
      rw [keeps.splitAtFence_map _ more (Nat.lt_succ_self _)]
      simp only [Option.map_map]
      congr 1
      funext found
      simp only [Function.comp, Prod.mk.injEq, and_true, List.append_nil]
      rw [show "```".toList = ['`', '`', '`'] from rfl, keeps.append_ticks,
        keeps.split _ _ _ lineBreak]
  · have outside : ∃ x ∈ front, isWordChar x = false := by simpa using allWord
    have outside' : ∃ x ∈ f front, isWordChar x = false := by
      simpa using mt (keeps.word front).mp allWord
    simp [closedBlockAt, runUntil_append_eq_none outside noBreak,
      runUntil_append_eq_none outside' noBreak']

/-- At a backtick, `codeBlockRegex` commutes with a rewrite that keeps fences. -/
theorem codeBlockAt_map_tick (more : List Char) :
    codeBlockAt ('`' :: f more) =
      (codeBlockAt ('`' :: more)).map fun found => (f found.1, f found.2) := by
  have tick : IsFenceChar '`' := .inl rfl
  by_cases opening : ∃ rest, more = '`' :: '`' :: rest
  · obtain ⟨rest, rfl⟩ := opening
    rw [keeps.cons tick, keeps.cons tick]
    simp only [codeBlockAt, keeps.closedBlockAt_map]
    cases closedBlockAt rest <;> simp [keeps.cons tick, keeps.nil]
  · rw [codeBlockAt_of_not_ticks fun rest same => opening ((keeps.ticks_iff more).mp
        ⟨rest, (List.cons.inj same).2⟩),
      codeBlockAt_of_not_ticks fun rest same => opening ⟨rest, (List.cons.inj same).2⟩]
    rfl

theorem codeBlocks_map_of_lt : ∀ n (text : List Char), text.length < n →
    codeBlocks (f text) = (codeBlocks text).map f
  | 0, _, small => absurd small (Nat.not_lt_zero _)
  | n + 1, text, small => by
    have tick : IsFenceChar '`' := .inl rfl
    obtain ⟨front, back, rfl, clear, ending⟩ := exists_fenceFree_front (· = '`') text
    have noTick : '`' ∉ front := fun mem => clear _ mem rfl
    rw [keeps.append_of_back (ending_of_tick ending), codeBlocks_append noTick,
      codeBlocks_append (keeps.keeps front '`' tick noTick)]
    have shorter : back.length ≤ n := by simp at small; omega
    rcases ending with rfl | ⟨c, more, rfl, rfl⟩
    · simp [keeps.nil, codeBlocks]
    rw [keeps.cons tick]
    cases found : codeBlockAt ('`' :: more) with
    | none =>
      have found' : codeBlockAt ('`' :: f more) = none := by rw [keeps.codeBlockAt_map_tick, found]; rfl
      rw [codeBlocks_cons_of_codeBlockAt found', codeBlocks_cons_of_codeBlockAt found]
      exact codeBlocks_map_of_lt n more (by simp at shorter; omega)
    | some result =>
      obtain ⟨block, after⟩ := result
      have found' : codeBlockAt ('`' :: f more) = some (f block, f after) := by
        rw [keeps.codeBlockAt_map_tick, found]; rfl
      have consumed := codeBlockRegex.length_lt_of_matchAt found
      rw [codeBlocks_of_codeBlockAt found', codeBlocks_of_codeBlockAt found,
        codeBlocks_map_of_lt n after (by omega), List.map_cons]

/-- A rewrite that keeps fences rewrites each code block of a text and adds or drops none. -/
theorem codeBlocks_map (text : List Char) : codeBlocks (f text) = (codeBlocks text).map f :=
  keeps.codeBlocks_map_of_lt _ text (Nat.lt_succ_self _)

end KeepsFences

theorem KeepsFences.comp {f g : List Char → List Char} (outer : KeepsFences g)
    (inner : KeepsFences f) : KeepsFences (g ∘ f) where
  nil := by simp [inner.nil, outer.nil]
  split before after c fence := by simp [inner.split _ _ _ fence, outer.split _ _ _ fence]
  keeps text c fence absent := outer.keeps _ c fence (inner.keeps text c fence absent)
  nonempty text nonempty := outer.nonempty _ (inner.nonempty text nonempty)
  word text := (outer.word _).trans (inner.word text)

section Replace

variable {Groups : Type} (r : Regex Char Groups) (replacement : Groups → List Char)

/-- A global replace keeps fences when neither its regex nor its replacements cross a fence. -/
theorem keepsFences_replace (blind : ∀ c, IsFenceChar c → r.BlindTo c)
    (clean : ∀ text groups rest, r.matchAt text = some (groups, rest) →
      ∀ c ∈ replacement groups, ¬ IsFenceChar c)
    (marked : ∀ text groups rest, r.matchAt text = some (groups, rest) →
      (∃ c ∈ replacement groups, isWordChar c = false) ∧ ∃ c ∈ text, isWordChar c = false) :
    KeepsFences (r.replace replacement) where
  nil := r.replace_nil replacement
  split before after c fence := r.replace_append_cons replacement (blind c fence) before after
  keeps text c fence := by
    induction text using r.induction with
    | nil => simp
    | matched text groups rest found tail =>
      intro absent
      rw [Regex.replace_of_matchAt _ found, List.mem_append, not_or]
      exact ⟨fun mem => clean _ _ _ found c mem fence,
        tail fun mem => absent ((r.suffix_of_matchAt found).subset mem)⟩
    | skipped x rest missed tail =>
      intro absent
      rw [Regex.replace_cons_of_matchAt _ missed]
      simp only [List.mem_cons, not_or] at absent ⊢
      exact ⟨absent.1, tail absent.2⟩
  nonempty text nonempty := by
    obtain ⟨x, rest, rfl⟩ := List.exists_cons_of_ne_nil nonempty
    cases found : r.matchAt (x :: rest) with
    | none => simp [Regex.replace_cons_of_matchAt _ found]
    | some result =>
      obtain ⟨c, mem, -⟩ := (marked _ _ _ found).1
      rw [Regex.replace_of_matchAt _ found]
      exact List.ne_nil_of_mem (List.mem_append_left _ mem)
  word text := by
    induction text using r.induction with
    | nil => simp
    | matched text groups rest found tail =>
      obtain ⟨⟨c, mem, other⟩, ⟨d, mem', other'⟩⟩ := marked _ _ _ found
      rw [Regex.replace_of_matchAt _ found]
      exact iff_of_false (fun all => by simpa [other] using all c (List.mem_append_left _ mem))
        (fun all => by simpa [other'] using all d mem')
    | skipped x rest missed tail =>
      rw [Regex.replace_cons_of_matchAt _ missed]
      simp only [List.mem_cons, forall_eq_or_imp, tail]

end Replace

theorem citationTag_blindTo {c : Char} (fence : IsFenceChar c) : citationTag.BlindTo c :=
  Regex.blindTo_of_matchAt_iff (fun tag => '[' :: tag.1 :: tag.2 ++ [']'])
    (fun tag _ => (tag.1 = 'Q' ∨ tag.1 = 'D') ∧ tag.2 ≠ [] ∧ ∀ d ∈ tag.2, d.isDigit)
    (fun _ ⟨_, _⟩ _ => by simp [citationTagAt_eq_some, and_assoc])
    (fun _ _ ⟨isKind, _, digitsOnly⟩ mem => by
      rcases fence with rfl | rfl <;> rcases isKind with isKind | isKind <;>
        simp [isKind] at mem <;> exact absurd (digitsOnly _ mem) (by decide))
    (fun _ _ _ => Iff.rfl)

theorem braceCitation_blindTo {c : Char} (fence : IsFenceChar c) : braceCitation.BlindTo c :=
  Regex.blindTo_of_matchAt_iff (fun digits => '{' :: '{' :: digits ++ ['}', '}'])
    (fun digits _ => digits ≠ [] ∧ ∀ d ∈ digits, d.isDigit)
    (fun _ _ _ => by simp [braceCitationAt_eq_some, and_assoc])
    (fun _ _ ⟨_, digitsOnly⟩ mem => by
      rcases fence with rfl | rfl <;> simp at mem <;> exact absurd (digitsOnly _ mem) (by decide))
    (fun _ _ _ => Iff.rfl)

theorem bareClose_blindTo {c : Char} (fence : IsFenceChar c) : bareClose.BlindTo c :=
  Regex.blindTo_of_matchAt_iff (fun _ => [']', ']']) (fun _ rest => rest.head? ≠ some '(')
    (fun _ _ _ => by simp [bareCloseAt_eq_some, and_comm])
    (fun _ _ _ => by rcases fence with rfl | rfl <;> simp)
    (fun _ rest _ => by cases rest <;> rcases fence with rfl | rfl <;> simp)

section

variable {numberText : List Char → List Char} (plain : PlainNumberText numberText)
include plain

theorem keepsFences_replaceCitationTags : KeepsFences (replaceCitationTags numberText) :=
  keepsFences_replace _ _ (fun _ fence => citationTag_blindTo fence)
    (fun _ ⟨_, digits⟩ _ found c mem fence => by
      obtain ⟨isKind, -⟩ := citationTagAt_eq_some.mp found
      rcases fence with rfl | rfl <;> rcases isKind with isKind | isKind <;>
        simp [citationLink, isKind] at mem <;> exact plain digits _ mem (by decide))
    (fun _ ⟨_, _⟩ _ found => by
      obtain ⟨-, -, -, rfl⟩ := citationTagAt_eq_some.mp found
      exact ⟨⟨'[', by simp [citationLink], rfl⟩, ⟨'[', by simp, rfl⟩⟩)

theorem keepsFences_replaceBraceCitations : KeepsFences (replaceBraceCitations numberText) :=
  keepsFences_replace _ _ (fun _ fence => braceCitation_blindTo fence)
    (fun _ digits _ _ c mem fence => by
      rcases fence with rfl | rfl <;> simp [braceLink] at mem <;> exact plain digits _ mem (by decide))
    (fun _ _ _ found => by
      obtain ⟨-, -, rfl⟩ := braceCitationAt_eq_some.mp found
      exact ⟨⟨'[', by simp [braceLink], rfl⟩, ⟨'{', by simp, rfl⟩⟩)

end

theorem keepsFences_closeBrackets : KeepsFences closeBrackets :=
  keepsFences_replace _ _ (fun _ fence => bareClose_blindTo fence)
    (fun _ _ _ _ c mem fence => by rcases fence with rfl | rfl <;> simp at mem)
    (fun _ _ _ found => by
      obtain ⟨rfl, -⟩ := bareCloseAt_eq_some.mp found
      exact ⟨⟨']', by simp, rfl⟩, ⟨']', by simp, rfl⟩⟩)

/-- The three rewrites keep every backtick and line break, whatever number text they print. -/
theorem keepsFences_citationRewrites {numberText : List Char → List Char}
    (plain : PlainNumberText numberText) : KeepsFences (citationRewrites numberText) :=
  keepsFences_closeBrackets.comp
    ((keepsFences_replaceBraceCitations plain).comp (keepsFences_replaceCitationTags plain))

/-- The rewrites reach into code blocks: each block is rewritten like prose, none added or lost. -/
theorem citationRewrites_codeBlocks (s : List Char) :
    codeBlocks (citationRewrites parseIntText s) = (codeBlocks s).map (citationRewrites parseIntText) :=
  (keepsFences_citationRewrites parseIntText_plain).codeBlocks_map s

/-- A tag inside a closed block is rewritten. -/
theorem citationRewrites_changes_code_block :
    codeBlocks (citationRewrites parseIntText "```\n[Q1]```".toList) ≠ codeBlocks "```\n[Q1]```".toList := by
  decide

end DanswerWeb.Message
