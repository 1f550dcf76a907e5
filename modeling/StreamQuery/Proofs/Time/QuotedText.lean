import StreamQuery.Function.Date
import StreamQuery.Proofs.Time.PercentNotation
namespace StreamQuery

/-! Quoted text in a date pattern. A quote in it is written twice, but the first of the two ends the
quoted text. What is written comes out again only if its quotes all stand at its beginning or at its
end, and something else is there. -/

namespace DatePattern

def doubled (text : List Char) : List Char :=
  text.flatMap fun character => if character = '\'' then ['\'', '\''] else [character]

/-- The pattern that quotes a text, with every quote in the text written twice. -/
def quotation (text : String) : String :=
  String.ofList ('\'' :: (doubled text.toList ++ ['\'']))

def OnlyQuotes (text : List Char) : Prop :=
  ∀ character ∈ text, character = '\''

instance (text : List Char) : Decidable (OnlyQuotes text) :=
  List.decidableBAll (· = '\'') text

/-- What is left of a text behind a character. A quote is lost if it stands right behind a character
that is none, and another such character follows later. -/
def keptBehind (previous : Char) : List Char → List Char
  | [] => []
  | character :: rest =>
      if character = '\'' ∧ previous ≠ '\'' ∧ ¬OnlyQuotes rest then keptBehind character rest
      else character :: keptBehind character rest

def shownCharacters (text : List Char) : List Char :=
  if OnlyQuotes text then '\'' :: text else keptBehind '\'' text

def shown (text : String) : String :=
  String.ofList (shownCharacters text.toList)

variable {text rest : List Char} {character previous : Char}

theorem onlyQuotes_nil : OnlyQuotes [] :=
  List.forall_mem_nil _

theorem onlyQuotes_cons : OnlyQuotes (character :: rest) ↔ character = '\'' ∧ OnlyQuotes rest :=
  List.forall_mem_cons

theorem onlyQuotes_singleton : OnlyQuotes [character] ↔ character = '\'' := by
  rw [onlyQuotes_cons, and_iff_left onlyQuotes_nil]

theorem keptBehind_of_onlyQuotes (only : OnlyQuotes text) : keptBehind previous text = text := by
  induction text generalizing previous with
  | nil => rfl
  | cons character rest induction =>
      have others := (onlyQuotes_cons.mp only).2
      rw [keptBehind, if_neg fun lost => lost.2.2 others, induction others]

theorem doubled_other (other : character ≠ '\'') (rest : List Char) :
    doubled (character :: rest) = character :: doubled rest := by
  rw [doubled, List.flatMap_cons, if_neg other]
  rfl

theorem itemsFrom_afterQuote_other (other : character ≠ '\'') (rest : List Char) :
    itemsFrom .afterQuote (character :: rest) = .literal character :: itemsFrom .quoted rest := by
  rw [itemsFrom, beq_eq_false_iff_ne.mpr other]
  rfl

theorem itemsFrom_quoted_other (other : character ≠ '\'') (rest : List Char) :
    itemsFrom .quoted (character :: rest) = .literal character :: itemsFrom .quoted rest := by
  rw [itemsFrom, beq_eq_false_iff_ne.mpr other]
  rfl

theorem shownCharacters_quote (rest : List Char) :
    shownCharacters ('\'' :: rest) = '\'' :: shownCharacters rest := by
  simp only [shownCharacters, onlyQuotes_cons, true_and]
  split
  · rfl
  · simp only [keptBehind, ne_eq, not_true_eq_false, false_and, and_false, if_false]

theorem shownCharacters_other (other : character ≠ '\'') (rest : List Char) :
    shownCharacters (character :: rest) = character :: keptBehind character rest := by
  simp only [shownCharacters, keptBehind, onlyQuotes_cons, other, false_and, if_false]

theorem keptBehind_quote (other : previous ≠ '\'') (rest : List Char) :
    keptBehind previous ('\'' :: rest) = shownCharacters rest := by
  by_cases only : OnlyQuotes rest
  · simp only [keptBehind, shownCharacters, only, not_true_eq_false, and_false, if_false, if_true,
      keptBehind_of_onlyQuotes only]
  · simp only [keptBehind, shownCharacters, only, other, ne_eq, not_false_eq_true, and_self,
      if_false, if_true]

theorem keptBehind_other (other : character ≠ '\'') (rest : List Char) :
    keptBehind previous (character :: rest) = character :: keptBehind character rest := by
  simp only [keptBehind, other, false_and, if_false]

/-- Inside of quoted text, the first quote of two ends it, and the second one is read as if it began
quoted text again. -/
theorem itemsFrom_doubled (text : List Char) :
    itemsFrom .afterQuote (doubled text ++ ['\'']) = (shownCharacters text).map .literal ∧
      ∀ previous, previous ≠ '\'' →
        itemsFrom .quoted (doubled text ++ ['\'']) = (keptBehind previous text).map .literal := by
  induction text with
  | nil => exact ⟨rfl, fun _ _ => rfl⟩
  | cons character rest induction =>
      by_cases quote : character = '\''
      · subst quote
        constructor
        · rw [shownCharacters_quote, List.map_cons, ← induction.1]
          rfl
        · intro previous other
          rw [keptBehind_quote other, ← induction.1]
          rfl
      · have behind := induction.2 character quote
        rw [doubled_other quote, List.cons_append]
        constructor
        · rw [itemsFrom_afterQuote_other quote, shownCharacters_other quote, behind, List.map_cons]
        · intro previous _
          rw [itemsFrom_quoted_other quote, keptBehind_other quote, behind, List.map_cons]

theorem items_quotation (text : String) :
    items (quotation text) = (shown text).toList.map .literal := by
  rw [items, quotation, shown, String.toList_ofList, String.toList_ofList]
  exact (itemsFrom_doubled text.toList).1

/-! Texts that come out as they are. -/

/-- A quote stands somewhere between two characters that are none. -/
def QuoteBetween (text : List Char) : Prop :=
  ∃ first last, text = first ++ '\'' :: last ∧ ¬OnlyQuotes first ∧ ¬OnlyQuotes last

theorem quoteBetween_cons : QuoteBetween (previous :: character :: rest) ↔
    (character = '\'' ∧ previous ≠ '\'' ∧ ¬OnlyQuotes rest) ∨ QuoteBetween (character :: rest) := by
  constructor
  · rintro ⟨first, last, split, before, after⟩
    match first, split with
    | [], _ => exact absurd onlyQuotes_nil before
    | [_], split =>
        cases split
        exact .inl ⟨rfl, mt onlyQuotes_singleton.mpr before, after⟩
    | _ :: _ :: others, split =>
        cases split
        by_cases only : OnlyQuotes (character :: others)
        · have later : ¬OnlyQuotes (others ++ '\'' :: last) := fun all =>
            after (List.forall_mem_cons.mp (List.forall_mem_append.mp all).2).2
          exact .inl ⟨(onlyQuotes_cons.mp only).1,
            fun quote => before (onlyQuotes_cons.mpr ⟨quote, only⟩), later⟩
        · exact .inr ⟨character :: others, last, rfl, only, after⟩
  · rintro (⟨rfl, other, later⟩ | ⟨first, last, split, before, after⟩)
    · exact ⟨[previous], rest, rfl, mt onlyQuotes_singleton.mp other, later⟩
    · have longer : ¬OnlyQuotes (previous :: first) := fun all =>
        before (onlyQuotes_cons.mp all).2
      exact ⟨previous :: first, last, congrArg _ split, longer, after⟩

theorem QuoteBetween.length (between : QuoteBetween text) : 3 ≤ text.length := by
  rcases between with ⟨first, last, rfl, before, after⟩
  have some (part : List Char) (other : ¬OnlyQuotes part) : 0 < part.length :=
    List.length_pos_iff.mpr fun none => other (none ▸ onlyQuotes_nil)
  have longer := some first before
  have later := some last after
  simp only [List.length_append, List.length_cons]
  omega

theorem keptBehind_sublist : (keptBehind previous text).Sublist text := by
  induction text generalizing previous with
  | nil => exact .slnil
  | cons character rest induction =>
      simp only [keptBehind]
      split
      · exact induction.cons character
      · exact induction.cons_cons character

theorem keptBehind_eq_self_iff :
    keptBehind previous text = text ↔ ¬QuoteBetween (previous :: text) := by
  induction text generalizing previous with
  | nil => exact iff_of_true rfl fun between => absurd between.length (by simp)
  | cons character rest induction =>
      rw [quoteBetween_cons, keptBehind]
      split
      · next lost =>
          have shorter : keptBehind character rest ≠ character :: rest := by
            intro same
            have bound := (@keptBehind_sublist rest character).length_le
            rw [same, List.length_cons] at bound
            omega
          exact iff_of_false shorter (not_not_intro (.inl lost))
      · next kept =>
          have later : keptBehind character rest = rest ↔ ¬QuoteBetween (character :: rest) :=
            induction
          rw [List.cons.injEq, eq_self, true_and, later, not_or, and_iff_right kept]

theorem quoteBetween_quote_cons : QuoteBetween ('\'' :: text) ↔ QuoteBetween text := by
  cases text with
  | nil =>
      exact iff_of_false (fun between => absurd between.length (by decide))
        fun between => absurd between.length (by decide)
  | cons character rest =>
      simp only [quoteBetween_cons, ne_eq, not_true_eq_false, false_and, and_false, false_or]

theorem shownCharacters_eq_self_iff :
    shownCharacters text = text ↔ ¬OnlyQuotes text ∧ ¬QuoteBetween text := by
  rw [shownCharacters]
  split
  · next only => exact iff_of_false (List.cons_ne_self _ _) fun kept => kept.1 only
  · next mixed => rw [keptBehind_eq_self_iff, quoteBetween_quote_cons, and_iff_right mixed]

theorem shown_eq_self_iff {text : String} :
    shown text = text ↔ ¬OnlyQuotes text.toList ∧ ¬QuoteBetween text.toList := by
  rw [← shownCharacters_eq_self_iff, shown, ← String.toList_inj, String.toList_ofList]

end DatePattern

namespace Value

open DatePattern

/-- A quoted text is written as it comes out of the quotation, whatever the instant, as long as that
has a date. -/
theorem formatInstant_quotation (zone : Zone) (millis : Int64)
    (dated : Moment.hasDate millis.toInt = true) (text : String) :
    formatInstant zone millis (.string (quotation text)) = .ok (.string (shown text)) ∧
      (formatInstant zone millis (.string (quotation text)) = .ok (.string text) ↔
        ¬OnlyQuotes text.toList ∧ ¬QuoteBetween text.toList) := by
  have written : DatePattern.format? zone millis.toInt (quotation text) = some (shown text) := by
    rw [DatePattern.format?, PercentNotation.format?_ofPattern, items_quotation]
    simp only [DateItem.write?, dated, if_true, List.flatMap_map, DateItem.text,
      List.flatMap_singleton', String.ofList_toList]
  have formatted : formatInstant zone millis (.string (quotation text)) =
      .ok (.string (shown text)) := by
    simp only [formatInstant, Value.toString, written]
  refine ⟨formatted, ?_⟩
  rw [formatted, Except.ok.injEq, Value.string.injEq, shown_eq_self_iff]

/-- `'a''b'` begins with a quote, ends with one and has two of them inside. -/
theorem formatInstant_quotation_ends :
    let text := "'a''b'"
    Moment.hasDate (0 : Int64).toInt = true ∧
      formatInstant .default 0 (.string (quotation text)) = .ok (.string "'a'b'") ∧
      formatInstant .default 0 (.string (quotation text)) ≠ .ok (.string text) := by
  intro text
  have dated : Moment.hasDate (0 : Int64).toInt = true := by decide
  have both := formatInstant_quotation .default 0 dated text
  have shows : shown text = "'a'b'" := by decide
  refine ⟨dated, shows ▸ both.1, ?_⟩
  intro same
  apply (both.2.mp same).2
  exact ⟨['\'', 'a'], ['\'', 'b', '\''], by decide, by decide, by decide⟩

/-- `it's` loses its quote, and a quote by itself comes out twice. -/
theorem formatInstant_quotation_fails :
    Moment.hasDate (0 : Int64).toInt = true ∧
      quotation "it's" = "'it''s'" ∧
      formatInstant .default 0 (.string "'it''s'") = .ok (.string "its") ∧
      quotation "'" = "''''" ∧
      formatInstant .default 0 (.string "''''") = .ok (.string "''") := by
  exact ⟨by decide, by decide, by with_unfolding_all rfl, by decide, by with_unfolding_all rfl⟩

end Value

end StreamQuery
