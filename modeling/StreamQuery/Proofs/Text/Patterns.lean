import Mathlib.Data.List.Forall2
import StreamQuery.Text.Pattern
namespace StreamQuery.Text

/-! A text is like a pattern if it splits into pieces, one for each element of the pattern. The scan
decides this, although it goes back to the most recent run alone: whatever a run before that one
could still take, the most recent one can take as well. -/

/-- A pattern spells its elements one after the other. -/
inductive Spells : List Char → List PatternElement → Prop
  | nil : Spells [] []
  | anyRun : Spells rest elements → Spells ('%' :: rest) (.anyRun :: elements)
  | anyOne : Spells rest elements → Spells ('_' :: rest) (.anyOne :: elements)
  | escaped : Spells rest elements →
      Spells ('\\' :: character :: rest) (.exactly character :: elements)
  | lastBackslash : Spells ['\\'] [.exactly '\\']
  | plain : character ≠ '%' → character ≠ '_' → character ≠ '\\' → Spells rest elements →
      Spells (character :: rest) (.exactly character :: elements)

def PatternElement.Covers : PatternElement → List Char → Prop
  | .anyRun, _ => True
  | .anyOne, piece => ∃ character, piece = [character]
  | .exactly wanted, piece => piece = [wanted]

/-- The text is made of consecutive pieces that the elements cover in turn. -/
def Splits (elements : List PatternElement) (text : List Char) : Prop :=
  ∃ pieces : List (List Char),
    pieces.flatten = text ∧ List.Forall₂ PatternElement.Covers elements pieces

variable {elements rest : List PatternElement} {element : PatternElement} {text : List Char}

theorem splits_nil : Splits [] text ↔ text = [] := by
  constructor
  · rintro ⟨pieces, rfl, covered⟩
    cases covered
    rfl
  · rintro rfl
    exact ⟨[], rfl, .nil⟩

theorem splits_cons : Splits (element :: rest) text ↔
    ∃ piece left, piece ++ left = text ∧ element.Covers piece ∧ Splits rest left := by
  constructor
  · rintro ⟨pieces, rfl, covered⟩
    cases covered with
    | cons first others => exact ⟨_, _, rfl, first, _, rfl, others⟩
  · rintro ⟨piece, _, rfl, first, pieces, rfl, others⟩
    exact ⟨piece :: pieces, rfl, .cons first others⟩

theorem splits_cons_congr {other : List PatternElement}
    (same : ∀ text, Splits rest text ↔ Splits other text) :
    Splits (element :: rest) text ↔ Splits (element :: other) text := by
  simp only [splits_cons, same]

theorem splits_anyRun : Splits (.anyRun :: rest) text ↔ ∃ taken, Splits rest (text.drop taken) := by
  rw [splits_cons]
  constructor
  · rintro ⟨piece, left, rfl, _, splits⟩
    exact ⟨piece.length, by rwa [List.drop_left]⟩
  · rintro ⟨taken, splits⟩
    exact ⟨text.take taken, text.drop taken, List.take_append_drop taken text, trivial, splits⟩

theorem splits_runBefore :
    Splits (PatternElement.runBefore elements) text ↔ Splits (.anyRun :: elements) text := by
  have again : ∀ rest, Splits (.anyRun :: .anyRun :: rest) text ↔ Splits (.anyRun :: rest) text := by
    intro rest
    simp only [splits_anyRun, List.drop_drop]
    exact ⟨fun ⟨first, second, splits⟩ => ⟨first + second, splits⟩,
      fun ⟨taken, splits⟩ => ⟨0, taken, by rwa [Nat.zero_add]⟩⟩
  rcases elements with _ | ⟨_ | _ | wanted, rest⟩
  case cons.anyRun => exact (again rest).symm
  all_goals exact Iff.rfl

theorem covers_single (single : element ≠ .anyRun) {piece : List Char} :
    element.Covers piece ↔ ∃ character, piece = [character] ∧ element.takes character := by
  cases element with
  | anyRun => exact absurd rfl single
  | anyOne => simp [PatternElement.Covers, PatternElement.takes]
  | exactly wanted =>
      constructor
      · rintro rfl
        exact ⟨wanted, rfl, beq_self_eq_true wanted⟩
      · rintro ⟨character, rfl, takes⟩
        exact congrArg ([·]) (beq_iff_eq.mp takes).symm

theorem splits_single (single : element ≠ .anyRun) : Splits (element :: rest) text ↔
    ∃ character left, text = character :: left ∧ element.takes character ∧ Splits rest left := by
  simp only [splits_cons, covers_single single]
  constructor
  · rintro ⟨_, left, rfl, ⟨character, rfl, takes⟩, splits⟩
    exact ⟨character, left, rfl, takes, splits⟩
  · rintro ⟨character, left, rfl, takes, splits⟩
    exact ⟨[character], left, rfl, ⟨character, rfl, takes⟩, splits⟩

theorem Splits.drop_passed {passed : List PatternElement} (single : .anyRun ∉ passed)
    (splits : Splits (passed ++ rest) text) : Splits rest (text.drop passed.length) := by
  induction passed generalizing text with
  | nil => exact splits
  | cons element passed induction =>
      rw [List.mem_cons, not_or] at single
      obtain ⟨character, left, rfl, _, splits⟩ := (splits_single (Ne.symm single.1)).mp splits
      exact induction single.2 splits

theorem splits_empty : Splits elements [] ↔ elements.all (· == .anyRun) := by
  induction elements with
  | nil => simp [splits_nil]
  | cons element rest induction =>
      by_cases run : element = .anyRun
      · subst run
        simp [splits_anyRun, induction]
      · simp [splits_single run, run]

/-! Every pattern spells one list of elements. Leaving out runs that follow another makes no
difference to what the pattern matches. -/

theorem Spells.unique {pattern : List Char} {other : List PatternElement}
    (spells : Spells pattern elements) (otherSpells : Spells pattern other) : other = elements := by
  induction spells generalizing other with
  | nil => cases otherSpells; rfl
  | anyRun _ induction =>
      cases otherSpells with
      | anyRun spells => rw [induction spells]
      | plain => contradiction
  | anyOne _ induction =>
      cases otherSpells with
      | anyOne spells => rw [induction spells]
      | plain => contradiction
  | escaped _ induction =>
      cases otherSpells with
      | escaped spells => rw [induction spells]
      | plain => contradiction
  | lastBackslash =>
      cases otherSpells with
      | lastBackslash => rfl
      | plain => contradiction
  | plain _ _ _ _ induction =>
      cases otherSpells with
      | plain _ _ _ spells => rw [induction spells]
      | _ => contradiction

theorem exists_spells (pattern : List Char) : ∃ elements, Spells pattern elements ∧
    ∀ text, Splits (patternElements pattern) text ↔ Splits elements text := by
  induction pattern using patternElements.induct with
  | case1 => exact ⟨[], .nil, fun _ => Iff.rfl⟩
  | case2 rest induction =>
      obtain ⟨elements, spells, same⟩ := induction
      exact ⟨_, spells.anyRun, fun _ => splits_runBefore.trans (splits_cons_congr same)⟩
  | case3 rest induction =>
      obtain ⟨elements, spells, same⟩ := induction
      exact ⟨_, spells.anyOne, fun _ => splits_cons_congr same⟩
  | case4 => exact ⟨_, .lastBackslash, fun _ => Iff.rfl⟩
  | case5 character rest induction =>
      obtain ⟨elements, spells, same⟩ := induction
      exact ⟨_, spells.escaped, fun _ => splits_cons_congr same⟩
  | case6 character rest noRun noOne noLast noEscape induction =>
      obtain ⟨elements, spells, same⟩ := induction
      have noBackslash : character ≠ '\\' := by
        intro backslash
        cases rest with
        | nil => exact noLast backslash rfl
        | cons next rest => exact noEscape next rest backslash rfl
      refine ⟨_, spells.plain noRun noOne noBackslash, fun _ => ?_⟩
      rw [patternElements.eq_6 _ _ noRun noOne noLast noEscape]
      exact splits_cons_congr same

/-! The scan. -/

namespace PatternScan

variable {scan later : PatternScan}

/-- The elements fit from here on, or with a most recent run that takes more. -/
def Succeeds (scan : PatternScan) : Prop :=
  Splits scan.here.elements scan.here.text ∨
    ∃ start ∈ scan.resume, ∃ more, Splits start.elements (start.text.drop (more + 1))

theorem succeeds_behindRun (place : PatternPlace) :
    (behindRun place).Succeeds ↔ Splits (.anyRun :: place.elements) place.text := by
  simp only [Succeeds, behindRun, Option.mem_some_iff, exists_eq_left', splits_anyRun]
  constructor
  · rintro (splits | ⟨more, splits⟩)
    · exact ⟨0, splits⟩
    · exact ⟨more + 1, splits⟩
  · rintro ⟨taken, splits⟩
    cases taken with
    | zero => exact .inl splits
    | succ more => exact .inr ⟨more, splits⟩

/-- What a run before could still take is behind the elements that have been passed, where the text
would go on from here with as much less. -/
theorem splits_later {start here : PatternPlace} (passes : start.Passes here) {more : Nat}
    (splits : Splits start.elements (start.text.drop more)) :
    Splits here.elements (here.text.drop more) := by
  rcases passes with ⟨passed, elements, single, left⟩
  rw [elements] at splits
  have behind := splits.drop_passed single
  rwa [List.drop_drop, Nat.add_comm, ← List.drop_drop, left] at behind

theorem succeeds_goBack (stuck : ¬ Splits scan.here.elements scan.here.text)
    (turn : goBack scan.resume = some later) : later.Succeeds ↔ scan.Succeeds := by
  rcases Option.map_eq_some_iff.mp turn with ⟨place, found, rfl⟩
  rw [succeeds_behindRun, splits_anyRun]
  simp only [Succeeds, found, Option.mem_some_iff, exists_eq_left', stuck, false_or,
    ← List.drop_one, List.drop_drop, Nat.add_comm]

/-- No turn changes whether the text fits. -/
theorem succeeds_next (turn : scan.next = some later) : later.Succeeds ↔ scan.Succeeds := by
  rcases scan with ⟨⟨_ | ⟨character, text⟩, _ | ⟨element, rest⟩⟩, resume, passes⟩
  · cases turn
  · cases turn
  · exact succeeds_goBack (by simp [splits_nil]) turn
  · simp only [next] at turn
    split at turn
    · next run =>
        subst run
        cases turn
        rw [succeeds_behindRun]
        refine ⟨.inl, ?_⟩
        rintro (splits | ⟨start, among, more, splits⟩)
        · exact splits
        · obtain ⟨taken, splits⟩ := splits_anyRun.mp (splits_later (passes start among) splits)
          exact splits_anyRun.mpr ⟨_, by rwa [List.drop_drop] at splits⟩
    · next single =>
        split at turn
        · next takes =>
            cases turn
            simp [Succeeds, splits_single single, takes]
        · next stuck => exact succeeds_goBack (by simp [splits_single single, stuck]) turn

theorem succeeds_iff_accepts (ended : scan.next = none) : scan.Succeeds ↔ scan.accepts := by
  rcases scan with ⟨⟨_ | ⟨character, text⟩, elements⟩, resume, passes⟩
  · have here : Succeeds ⟨⟨[], elements⟩, resume, passes⟩ ↔ Splits elements [] := by
      refine ⟨?_, .inl⟩
      rintro (splits | ⟨start, among, more, splits⟩)
      · exact splits
      · simpa using splits_later (passes start among) splits
    simp [here, splits_empty, accepts]
  · have stuck (single : ¬ Splits elements (character :: text)) (ended : goBack resume = none) :
        Succeeds ⟨⟨character :: text, elements⟩, resume, passes⟩ ↔
          accepts ⟨⟨character :: text, elements⟩, resume, passes⟩ := by
      simp [Succeeds, single, Option.map_eq_none_iff.mp ended, accepts]
    rcases elements with _ | ⟨element, rest⟩
    · exact stuck (by simp [splits_nil]) ended
    · simp only [next] at ended
      split at ended
      · cases ended
      · next single =>
          split at ended
          · cases ended
          · next other => exact stuck (by simp [splits_single single, other]) ended

inductive EndsAfter : Nat → PatternScan → PatternScan → Prop
  | ended {scan : PatternScan} : scan.next = none → EndsAfter 0 scan scan
  | turn {turns : Nat} {scan later final : PatternScan} :
      scan.next = some later → EndsAfter turns later final → EndsAfter (turns + 1) scan final

theorem endsAfter_last (scan : PatternScan) :
    ∃ turns ≤ scan.remaining, EndsAfter turns scan scan.last := by
  induction scan using last.induct with
  | case1 scan ended =>
      rw [last, ended]
      exact ⟨0, Nat.zero_le _, .ended ended⟩
  | case2 scan later turn induction =>
      obtain ⟨turns, bound, ends⟩ := induction
      rw [last, turn]
      exact ⟨turns + 1, Nat.lt_of_le_of_lt bound (remaining_next turn), .turn turn ends⟩

theorem EndsAfter.accepts_iff {turns : Nat} (ends : EndsAfter turns scan later) :
    later.accepts ↔ scan.Succeeds := by
  induction ends with
  | ended ended => exact (succeeds_iff_accepts ended).symm
  | turn turn _ induction => exact induction.trans (succeeds_next turn)

end PatternScan

theorem length_patternElements (pattern : List Char) :
    (patternElements pattern).length ≤ pattern.length := by
  have runBefore (elements : List PatternElement) :
      (PatternElement.runBefore elements).length ≤ elements.length + 1 := by
    rcases elements with _ | ⟨_ | _ | _, rest⟩ <;> simp [PatternElement.runBefore]
  induction pattern using patternElements.induct with
  | case1 | case4 => exact Nat.le_refl _
  | case2 rest induction => exact Nat.le_trans (runBefore _) (Nat.succ_le_succ induction)
  | case3 rest induction => exact Nat.succ_le_succ induction
  | case5 character rest induction => exact Nat.le_succ_of_le (Nat.succ_le_succ induction)
  | case6 character rest noRun noOne noLast noEscape induction =>
      rw [patternElements.eq_6 _ _ noRun noOne noLast noEscape]
      exact Nat.succ_le_succ induction

/-- Every pattern spells its elements in one way, the scan over text and pattern ends, and what it
ends with is whether the text splits into pieces that the elements cover in turn. -/
theorem like_iff_splits (text pattern : String) :
    (∃ turns final, turns < (text.length + 1) * (pattern.length + 1) ∧
      PatternScan.EndsAfter turns (.start text.toList (patternElements pattern.toList)) final ∧
      like text pattern = final.accepts) ∧
    ∃ elements, (∀ other, Spells pattern.toList other ↔ other = elements) ∧
      (like text pattern ↔ ∃ pieces : List (List Char), pieces.flatten = text.toList ∧
        List.Forall₂ PatternElement.Covers elements pieces) := by
  obtain ⟨turns, bound, ends⟩ :=
    (PatternScan.start text.toList (patternElements pattern.toList)).endsAfter_last
  obtain ⟨elements, spells, same⟩ := exists_spells pattern.toList
  refine ⟨⟨turns, _, ?_, ends, rfl⟩, elements, ?_, ?_⟩
  · have fewer := length_patternElements pattern.toList
    rw [String.length_toList] at fewer
    calc turns
      _ ≤ text.toList.length * ((patternElements pattern.toList).length + 1)
          + (patternElements pattern.toList).length := bound
      _ < text.toList.length * ((patternElements pattern.toList).length + 1)
          + ((patternElements pattern.toList).length + 1) := Nat.lt_succ_self _
      _ = (text.length + 1) * ((patternElements pattern.toList).length + 1) := by
          rw [String.length_toList, Nat.succ_mul]
      _ ≤ (text.length + 1) * (pattern.length + 1) :=
          Nat.mul_le_mul_left _ (Nat.succ_le_succ fewer)
  · exact fun other => ⟨spells.unique, fun equal => equal ▸ spells⟩
  · have succeeds : PatternScan.Succeeds
        (.start text.toList (patternElements pattern.toList)) ↔
          Splits (patternElements pattern.toList) text.toList := by
      simp [PatternScan.Succeeds, PatternScan.start]
    exact ends.accepts_iff.trans (succeeds.trans (same text.toList))

end StreamQuery.Text
