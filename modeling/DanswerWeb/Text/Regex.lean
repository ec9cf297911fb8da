import Mathlib.Data.List.Basic

namespace DanswerWeb.Text

/-- A global regular expression read at the head of a text; a match consumes something. -/
structure Regex (σ Groups : Type) where
  matchAt : List σ → Option (Groups × List σ)
  consumes : ∀ text groups rest, matchAt text = some (groups, rest) →
    ∃ taken, taken ≠ [] ∧ text = taken ++ rest

namespace Regex

variable {σ Groups β : Type} (r : Regex σ Groups)

theorem suffix_of_matchAt {text rest : List σ} {groups : Groups}
    (found : r.matchAt text = some (groups, rest)) : rest <:+ text := by
  obtain ⟨taken, -, rfl⟩ := r.consumes _ _ _ found
  exact List.suffix_append taken rest

theorem length_lt_of_matchAt {text rest : List σ} {groups : Groups}
    (found : r.matchAt text = some (groups, rest)) : rest.length < text.length := by
  obtain ⟨taken, nonempty, rfl⟩ := r.consumes _ _ _ found
  have := List.length_pos.mpr nonempty
  simp only [List.length_append]
  omega

theorem matchAt_nil : r.matchAt [] = none := by
  cases found : r.matchAt [] with
  | none => rfl
  | some result => exact absurd (r.length_lt_of_matchAt found) (Nat.not_lt_zero _)

/-- The scan of a global regex, with fuel for the text's length. -/
def scanFuel (onMatch : Groups → List β) (onSkip : σ → List β) : Nat → List σ → List β
  | 0, _ => []
  | _ + 1, [] => []
  | fuel + 1, c :: rest =>
    match r.matchAt (c :: rest) with
    | some (groups, after) => onMatch groups ++ scanFuel onMatch onSkip fuel after
    | none => onSkip c ++ scanFuel onMatch onSkip fuel rest

/-- The scan of the whole text. -/
def scan (onMatch : Groups → List β) (onSkip : σ → List β) (text : List σ) : List β :=
  r.scanFuel onMatch onSkip text.length text

/-- `text.replace(regex, replacement)` for a global `regex`. -/
def replace (replacement : Groups → List σ) : List σ → List σ :=
  r.scan replacement fun c => [c]

/-- `text.match(regex)` for a global `regex`, the matches in order (`null` is the empty list). -/
def matchAll : List σ → List Groups :=
  r.scan (fun groups => [groups]) fun _ => []

variable {r}

theorem scanFuel_stable (onMatch : Groups → List β) (onSkip : σ → List β) :
    ∀ fuel fuel' text, text.length ≤ fuel → text.length ≤ fuel' →
      r.scanFuel onMatch onSkip fuel text = r.scanFuel onMatch onSkip fuel' text
  | 0, fuel', [], _, _ => by cases fuel' <;> rfl
  | fuel + 1, 0, [], _, _ => rfl
  | _, 0, _ :: _, _, within' => absurd within' (by simp)
  | 0, _, _ :: _, within, _ => absurd within (by simp)
  | fuel + 1, fuel' + 1, [], _, _ => rfl
  | fuel + 1, fuel' + 1, c :: rest, within, within' => by
    cases found : r.matchAt (c :: rest) with
    | none =>
      simp only [List.length_cons] at within within'
      simp only [scanFuel, found]
      rw [scanFuel_stable onMatch onSkip fuel fuel' rest (by omega) (by omega)]
    | some result =>
      obtain ⟨groups, after⟩ := result
      have shorter := r.length_lt_of_matchAt found
      simp only [List.length_cons] at within within' shorter
      simp only [scanFuel, found]
      rw [scanFuel_stable onMatch onSkip fuel fuel' after (by omega) (by omega)]

variable (onMatch : Groups → List β) (onSkip : σ → List β)

@[simp] theorem scan_nil : r.scan onMatch onSkip [] = [] := rfl

theorem scan_of_matchAt {text rest : List σ} {groups : Groups}
    (found : r.matchAt text = some (groups, rest)) :
    r.scan onMatch onSkip text = onMatch groups ++ r.scan onMatch onSkip rest := by
  have shorter := r.length_lt_of_matchAt found
  match text, found with
  | c :: more, found =>
    simp only [List.length_cons] at shorter
    simp only [scan, List.length_cons, scanFuel, found]
    rw [scanFuel_stable onMatch onSkip more.length rest.length rest (by omega) le_rfl]

theorem scan_cons_of_matchAt {c : σ} {rest : List σ} (missed : r.matchAt (c :: rest) = none) :
    r.scan onMatch onSkip (c :: rest) = onSkip c ++ r.scan onMatch onSkip rest := by
  simp only [scan, List.length_cons, scanFuel, missed]

/-- Induction along the scan of `r`, after each match and each skipped unit. -/
theorem induction (r : Regex σ Groups) {motive : List σ → Prop} (nil : motive [])
    (matched : ∀ text groups rest, r.matchAt text = some (groups, rest) → motive rest → motive text)
    (skipped : ∀ c rest, r.matchAt (c :: rest) = none → motive rest → motive (c :: rest)) :
    ∀ text, motive text
  | [] => nil
  | c :: rest =>
    match found : r.matchAt (c :: rest) with
    | none => skipped c rest found (induction r nil matched skipped rest)
    | some (groups, after) =>
      have := r.length_lt_of_matchAt found
      matched _ groups after found (induction r nil matched skipped after)
termination_by text => text.length

variable (replacement : Groups → List σ)

@[simp] theorem replace_nil : r.replace replacement [] = [] := rfl

theorem replace_of_matchAt {text rest : List σ} {groups : Groups}
    (found : r.matchAt text = some (groups, rest)) :
    r.replace replacement text = replacement groups ++ r.replace replacement rest :=
  scan_of_matchAt _ _ found

theorem replace_cons_of_matchAt {c : σ} {rest : List σ}
    (missed : r.matchAt (c :: rest) = none) :
    r.replace replacement (c :: rest) = c :: r.replace replacement rest :=
  scan_cons_of_matchAt _ _ missed

@[simp] theorem matchAll_nil : r.matchAll [] = [] := rfl

theorem matchAll_of_matchAt {text rest : List σ} {groups : Groups}
    (found : r.matchAt text = some (groups, rest)) : r.matchAll text = groups :: r.matchAll rest :=
  scan_of_matchAt _ _ found

theorem matchAll_cons_of_matchAt {c : σ} {rest : List σ}
    (missed : r.matchAt (c :: rest) = none) : r.matchAll (c :: rest) = r.matchAll rest :=
  scan_cons_of_matchAt _ _ missed

/-- The first match follows a skipped front, and the scan goes on after it. -/
theorem matchAll_eq_cons {groups : Groups} {more : List Groups} :
    ∀ {text : List σ}, r.matchAll text = groups :: more →
      ∃ front rest after, text = front ++ rest ∧ r.matchAt rest = some (groups, after) ∧
        r.matchAll after = more := by
  intro text
  induction text using r.induction with
  | nil => simp
  | matched text found rest matched tail =>
    rw [matchAll_of_matchAt matched, List.cons.injEq]
    rintro ⟨rfl, rfl⟩
    exact ⟨[], text, rest, rfl, matched, rfl⟩
  | skipped c rest missed tail =>
    rw [matchAll_cons_of_matchAt missed]
    intro scan
    obtain ⟨front, start, after, rfl, matched, resumed⟩ := tail scan
    exact ⟨c :: front, start, after, rfl, matched, resumed⟩

/-- `text.match(r)` without the `g` flag: the index and groups of the leftmost match. -/
def search (r : Regex σ Groups) : List σ → Option (Nat × Groups)
  | [] => none
  | c :: rest =>
    match r.matchAt (c :: rest) with
    | some found => some (0, found.1)
    | none => (search r rest).map fun found => (found.1 + 1, found.2)

theorem search_of_matchAt {text rest : List σ} {groups : Groups}
    (found : r.matchAt text = some (groups, rest)) : r.search text = some (0, groups) := by
  cases text with
  | nil => rw [r.matchAt_nil] at found; cases found
  | cons c more => simp only [search, found]

/-- A front where no match starts shifts the index of the leftmost match. -/
theorem search_append {front : List σ} (rest : List σ)
    (misses : ∀ k < front.length, r.matchAt ((front ++ rest).drop k) = none) :
    r.search (front ++ rest) = (r.search rest).map fun found => (found.1 + front.length, found.2) := by
  induction front with
  | nil => simp
  | cons c front tail =>
    have missed : r.matchAt (c :: (front ++ rest)) = none := misses 0 (by simp)
    rw [List.cons_append, search, missed]
    dsimp only
    rw [tail fun k below => misses (k + 1) (by simpa using below), Option.map_map]
    simp only [Function.comp_def, List.length_cons, Nat.add_assoc]

/-- `r` matches nowhere in `text`: no suffix of `text` starts a match. -/
def Misses (r : Regex σ Groups) (text : List σ) : Prop :=
  ∀ rest, rest <:+ text → r.matchAt rest = none

theorem Misses.of_suffix {text rest : List σ} (misses : r.Misses text) (suffix : rest <:+ text) :
    r.Misses rest :=
  fun more inner => misses more (inner.trans suffix)

theorem misses_of_forall_drop {text : List σ}
    (unmatched : ∀ n ≤ text.length, r.matchAt (text.drop n) = none) : r.Misses text := by
  intro rest suffix
  rw [List.suffix_iff_eq_drop.mp suffix]
  exact unmatched _ (Nat.sub_le _ _)

/-- A text where the regex matches nowhere is left as it is. -/
theorem replace_eq_self {text : List σ} (misses : r.Misses text) :
    r.replace replacement text = text := by
  induction text with
  | nil => rfl
  | cons c rest tail =>
    rw [replace_cons_of_matchAt replacement (misses _ List.suffix_rfl)]
    exact congrArg _ (tail (misses.of_suffix (List.suffix_cons c rest)))

theorem suffix_append_cases {u front back : List σ} (suffix : u <:+ front ++ back) :
    u <:+ back ∨ ∃ part, part <:+ front ∧ part ≠ [] ∧ u = part ++ back := by
  obtain ⟨before, split⟩ := suffix
  rcases List.append_eq_append_iff.mp split with ⟨part, rfl, rfl⟩ | ⟨part, -, rfl⟩
  · by_cases empty : part = []
    · subst empty
      exact .inl (List.suffix_refl _)
    · exact .inr ⟨part, List.suffix_append before part, empty, rfl⟩
  · exact .inl (List.suffix_append part u)

/-- A replace's output misses `x` when no replacement end and no copied unit starts a match. -/
theorem misses_replace {Found : Type} (x : Regex σ Found) {text : List σ}
    (fresh : ∀ groups part after, part <:+ replacement groups → part ≠ [] →
      x.matchAt (part ++ after) = none)
    (skip : ∀ c rest, c :: rest <:+ text → r.matchAt (c :: rest) = none →
      x.matchAt (c :: r.replace replacement rest) = none) :
    x.Misses (r.replace replacement text) := by
  induction text using r.induction with
  | nil => intro rest suffix; rw [List.eq_nil_of_suffix_nil suffix]; exact x.matchAt_nil
  | matched text groups rest found tail =>
    have inner := r.suffix_of_matchAt found
    rw [replace_of_matchAt replacement found]
    intro u suffix
    rcases suffix_append_cases suffix with later | ⟨part, ending, nonempty, rfl⟩
    · exact tail (fun c more suffix => skip c more (suffix.trans inner)) u later
    · exact fresh groups part _ ending nonempty
  | skipped c rest missed tail =>
    rw [replace_cons_of_matchAt replacement missed]
    intro u suffix
    rcases List.suffix_cons_iff.mp suffix with rfl | later
    · exact skip c rest List.suffix_rfl missed
    · exact tail (fun d more suffix => skip d more (suffix.trans (List.suffix_cons c rest))) u later

/-- When every replacement starts with `h`, a front of the output without `h` is copied. -/
theorem replace_eq_append {h : σ} (starts : ∀ groups, (replacement groups).head? = some h) :
    ∀ {text : List σ} (front back : List σ), r.replace replacement text = front ++ back →
      h ∉ front → ∃ rest, text = front ++ rest ∧ r.replace replacement rest = back
  | text, [], back, split, _ => ⟨text, rfl, split⟩
  | text, x :: front, back, split, missing => by
    cases text with
    | nil => cases split
    | cons c rest =>
      cases found : r.matchAt (c :: rest) with
      | some result =>
        rw [replace_of_matchAt replacement found] at split
        have start := congrArg List.head? split
        cases output : replacement result.1 with
        | nil => simpa [output] using starts result.1
        | cons y more =>
          have first : y = h := by simpa [output] using starts result.1
          simp only [output, List.cons_append, List.head?_cons, Option.some.injEq] at start
          exact absurd (by rw [← start, first]; exact List.mem_cons_self h front) missing
      | none =>
        rw [replace_cons_of_matchAt replacement found, List.cons_append, List.cons.injEq] at split
        obtain ⟨rfl, inner⟩ := split
        obtain ⟨more, rfl, output⟩ :=
          replace_eq_append starts front back inner (fun mem => missing (List.mem_cons_of_mem c mem))
        exact ⟨more, rfl, output⟩

/-- The regex never matches at `c` and decides a match before `c` without reading past it. -/
def BlindTo (r : Regex σ Groups) (c : σ) : Prop :=
  ∀ before after, r.matchAt (before ++ c :: after) =
    (r.matchAt before).map fun found => (found.1, found.2 ++ c :: after)

/-- A replace splits at every character its regex is blind to. -/
theorem replace_append_cons {c : σ} (blind : r.BlindTo c) (before after : List σ) :
    r.replace replacement (before ++ c :: after) =
      r.replace replacement before ++ c :: r.replace replacement after := by
  induction before using r.induction with
  | nil =>
    have missed : r.matchAt (c :: after) = none := by
      simpa [matchAt_nil] using blind [] after
    simp [replace_cons_of_matchAt replacement missed]
  | matched text groups rest found tail =>
    have shifted : r.matchAt (text ++ c :: after) = some (groups, rest ++ c :: after) := by
      simp [blind text after, found]
    rw [replace_of_matchAt replacement shifted, replace_of_matchAt replacement found, tail,
      List.append_assoc]
  | skipped x rest missed tail =>
    have shifted : r.matchAt (x :: (rest ++ c :: after)) = none := by
      simpa [missed] using blind (x :: rest) after
    rw [List.cons_append, replace_cons_of_matchAt replacement shifted,
      replace_cons_of_matchAt replacement missed, tail, List.cons_append]

theorem append_cons_eq_append {c : σ} {before after front back : List σ}
    (split : before ++ c :: after = front ++ back) (missing : c ∉ front) :
    ∃ middle, before = front ++ middle ∧ back = middle ++ c :: after := by
  rcases List.append_eq_append_iff.mp split with ⟨part, rfl, tail⟩ | ⟨middle, rfl, rfl⟩
  · cases part with
    | nil => exact ⟨[], by simp, by simpa using tail.symm⟩
    | cons d part =>
      simp only [List.cons_append, List.cons.injEq] at tail
      obtain ⟨rfl, -⟩ := tail
      exact absurd (List.mem_append_right before (List.mem_cons_self c part)) missing
  · exact ⟨middle, rfl, rfl⟩

/-- A regex matching fixed texts, with a condition after them that `c` keeps, is blind to `c`. -/
theorem blindTo_of_matchAt_iff {c : σ} (shape : Groups → List σ)
    (valid : Groups → List σ → Prop)
    (exact : ∀ text groups rest, r.matchAt text = some (groups, rest) ↔
      valid groups rest ∧ text = shape groups ++ rest)
    (missing : ∀ groups rest, valid groups rest → c ∉ shape groups)
    (stable : ∀ groups rest after, valid groups (rest ++ c :: after) ↔ valid groups rest) :
    r.BlindTo c := by
  intro before after
  apply Option.ext
  rintro ⟨groups, rest⟩
  simp only [Option.mem_def, Option.map_eq_some', exact, Prod.exists, Prod.mk.injEq]
  constructor
  · rintro ⟨fine, split⟩
    obtain ⟨middle, rfl, rfl⟩ := append_cons_eq_append split (missing _ _ fine)
    exact ⟨groups, middle, ⟨(stable _ _ _).mp fine, rfl⟩, rfl, rfl⟩
  · rintro ⟨groups, middle, ⟨fine, rfl⟩, rfl, rfl⟩
    exact ⟨(stable _ _ _).mpr fine, by simp⟩

end Regex

/-- `[class]*` then `stop`, read at the head of a text: the run and the text after `stop`. -/
def runUntil {σ : Type} [DecidableEq σ] (inClass : σ → Bool) (stop : σ) :
    List σ → Option (List σ × List σ)
  | [] => none
  | c :: rest =>
    if c = stop then some ([], rest)
    else if inClass c then (runUntil inClass stop rest).map fun found => (c :: found.1, found.2)
    else none

variable {σ : Type} [DecidableEq σ] {inClass : σ → Bool} {stop : σ}

theorem runUntil_eq_some :
    ∀ {text run after : List σ}, runUntil inClass stop text = some (run, after) →
      text = run ++ stop :: after ∧ ∀ c ∈ run, inClass c
  | [], _, _, found => by simp [runUntil] at found
  | c :: rest, run, after, found => by
    simp only [runUntil] at found
    split at found
    · next isStop => cases found; simp [isStop]
    · split at found
      · next member =>
        obtain ⟨⟨more, after'⟩, inner, same⟩ := Option.map_eq_some'.mp found
        cases same
        obtain ⟨shape, classOnly⟩ := runUntil_eq_some inner
        exact ⟨by simp [shape], by simpa [member] using classOnly⟩
      · cases found

/-- `runUntil` decides at the first character that is neither in the class nor `stop`. -/
theorem runUntil_append_cons {c : σ} (notStop : c ≠ stop) (outside : inClass c = false) :
    ∀ before after, runUntil inClass stop (before ++ c :: after) =
      (runUntil inClass stop before).map fun found => (found.1, found.2 ++ c :: after)
  | [], after => by simp [runUntil, notStop, outside]
  | x :: before, after => by
    simp only [List.cons_append, runUntil, List.append_eq]
    split
    · rfl
    · split
      · rw [runUntil_append_cons notStop outside before after, Option.map_map, Option.map_map]
        rfl
      · rfl

theorem runUntil_of_run (outside : inClass stop = false) :
    ∀ {run : List σ} (after : List σ), (∀ c ∈ run, inClass c) →
      runUntil inClass stop (run ++ stop :: after) = some (run, after)
  | [], after, _ => by simp [runUntil]
  | c :: run, after, classOnly => by
    have member : inClass c := classOnly c (List.mem_cons_self c run)
    have notStop : c ≠ stop := fun same => by simp [same, outside] at member
    have tail := runUntil_of_run outside after fun d mem => classOnly d (List.mem_cons_of_mem c mem)
    rw [List.cons_append, runUntil, if_neg notStop, if_pos member, tail]
    rfl

/-- A run of the class without `stop` reads on into what follows it. -/
theorem runUntil_append_of_run :
    ∀ {run : List σ} (after : List σ), (∀ c ∈ run, inClass c) → stop ∉ run →
      runUntil inClass stop (run ++ after) =
        (runUntil inClass stop after).map fun found => (run ++ found.1, found.2)
  | [], after, _, _ => by simp
  | c :: run, after, classOnly, missing => by
    have member : inClass c := classOnly c (List.mem_cons_self c run)
    have notStop : c ≠ stop := fun same => missing (same ▸ List.mem_cons_self c run)
    have tail := runUntil_append_of_run after (fun d mem => classOnly d (List.mem_cons_of_mem c mem))
      (fun mem => missing (List.mem_cons_of_mem c mem))
    rw [List.cons_append, runUntil, if_neg notStop, if_pos member, tail, Option.map_map]
    rfl

/-- A front with a character outside the class and no `stop` ends the run without a match. -/
theorem runUntil_append_eq_none {front : List σ} (outside : ∃ x ∈ front, inClass x = false)
    (noStop : stop ∉ front) (back : List σ) : runUntil inClass stop (front ++ back) = none := by
  cases found : runUntil inClass stop (front ++ back) with
  | none => rfl
  | some result =>
    obtain ⟨run, after⟩ := result
    obtain ⟨shape, classOnly⟩ := runUntil_eq_some found
    obtain ⟨middle, rfl, -⟩ := Regex.append_cons_eq_append shape.symm noStop
    obtain ⟨x, mem, notIn⟩ := outside
    simp [classOnly x (List.mem_append_left middle mem)] at notIn

end DanswerWeb.Text
