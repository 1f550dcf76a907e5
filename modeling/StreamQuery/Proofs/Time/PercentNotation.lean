import Mathlib.Logic.ExistsUnique
import StreamQuery.Proofs.Time.PatternItems
namespace StreamQuery

/-! A text in percent notation can be taken apart in one way at most, so it is read as it was
spelled. A pattern that is put into this notation is never invalid, and asks for what it asked
for. -/

namespace PercentNotation

inductive Piece : List Char → Prop
  | plain {character : Char} : character ≠ '%' → Piece [character]
  | percent : Piece ['%', '%']
  | conversion (field : DateField) : Piece ('%' :: field.conversion)

theorem piece_iff {piece : List Char} :
    Piece piece ↔ ∃ item : DateItem, item.specification = piece := by
  constructor
  · intro valid
    cases valid with
    | @plain character other => exact ⟨.literal character, if_neg other⟩
    | percent => exact ⟨.literal '%', rfl⟩
    | conversion field => exact ⟨.field field, rfl⟩
  · rintro ⟨item, rfl⟩
    cases item with
    | field field => exact .conversion field
    | literal character =>
        simp only [DateItem.specification]
        split
        · exact .percent
        · next other => exact .plain other

theorem conversion?_append (field : DateField) (rest : List Char) :
    conversion? (field.conversion ++ rest) = some (.field field, rest) := by
  cases field <;> rfl

theorem specification_of_conversion? {text rest : List Char} {item : DateItem}
    (found : conversion? text = some (item, rest)) : '%' :: text = item.specification ++ rest := by
  unfold conversion? at found
  split at found <;> cases found <;> rfl

theorem read?_specification (item : DateItem) (rest : List Char) :
    read? (item.specification ++ rest) = (read? rest).map (item :: ·) := by
  cases item with
  | field field => exact read?_percent (conversion?_append field rest)
  | literal character =>
      simp only [DateItem.specification]
      split
      · next percent =>
          subst percent
          exact read?_percent rfl
      · next other => exact read?_other other rest

theorem read?_spell (items : List DateItem) : read? (spell items) = some items := by
  induction items with
  | nil => exact read?.eq_1
  | cons item items induction =>
      have others : read? (items.flatMap DateItem.specification) = some items := induction
      rw [spell, List.flatMap_cons, read?_specification, others, Option.map_some]

/-- What has been read spells the text: a text that is not made of valid pieces is refused. -/
theorem spell_of_read? {text : List Char} {items : List DateItem}
    (reads : read? text = some items) : spell items = text := by
  fun_induction read? text generalizing items with
  | case1 => cases reads; rfl
  | case2 => cases reads
  | case3 rest item later found induction =>
      rcases Option.map_eq_some_iff.mp reads with ⟨others, further, rfl⟩
      have spelled : others.flatMap DateItem.specification = later := induction further
      rw [spell, List.flatMap_cons, spelled]
      exact (specification_of_conversion? found).symm
  | case4 character rest other induction =>
      rcases Option.map_eq_some_iff.mp reads with ⟨others, further, rfl⟩
      have spelled : others.flatMap DateItem.specification = rest := induction further
      rw [spell, List.flatMap_cons, spelled, DateItem.specification, if_neg other]
      rfl

theorem read?_eq_some_iff {text : List Char} {items : List DateItem} :
    read? text = some items ↔ spell items = text := by
  constructor
  · exact spell_of_read?
  · rintro rfl
    exact read?_spell items

theorem exists_items {pieces : List (List Char)} (valid : ∀ piece ∈ pieces, Piece piece) :
    ∃ items : List DateItem, items.map DateItem.specification = pieces := by
  induction pieces with
  | nil => exact ⟨[], rfl⟩
  | cons piece pieces induction =>
      have both := List.forall_mem_cons.mp valid
      rcases piece_iff.mp both.1 with ⟨item, rfl⟩
      rcases induction both.2 with ⟨items, rfl⟩
      exact ⟨item :: items, rfl⟩

theorem eq_map_specification {pieces : List (List Char)} {items : List DateItem}
    (valid : ∀ piece ∈ pieces, Piece piece) (joined : pieces.flatten = spell items) :
    pieces = items.map DateItem.specification := by
  rcases exists_items valid with ⟨others, rfl⟩
  have same : spell others = spell items := joined
  have reads : read? (spell items) = some others := by
    rw [← same]
    exact read?_spell others
  rw [read?_spell] at reads
  rw [Option.some.inj reads]

theorem format?_ofPattern (zone : Zone) (millis : Int) (pattern : String) :
    format? zone millis (ofPattern pattern) =
      DateItem.write? zone millis (DatePattern.items pattern) := by
  rw [format?, DatePattern.ofPattern_eq, read?_spell]
  rfl

/-- Whatever the pattern, its text in percent notation splits in exactly one way into characters
that are no percent signs, doubled percent signs and conversions. Every instant that has a date can
be written by it, and is written as the fields and characters of the pattern say. -/
theorem ofPattern_splits (pattern : String) :
    (∃! pieces : List (List Char),
      (∀ piece ∈ pieces, Piece piece) ∧ pieces.flatten = (ofPattern pattern).toList) ∧
    ∀ (zone : Zone) (millis : Int),
      format? zone millis (ofPattern pattern) =
          DateItem.write? zone millis (DatePattern.items pattern) ∧
        (format? zone millis (ofPattern pattern)).isSome = Moment.hasDate millis := by
  let items := DatePattern.items pattern
  have text : (ofPattern pattern).toList = spell items := DatePattern.ofPattern_eq pattern
  constructor
  · refine ⟨items.map DateItem.specification, ⟨?valid, ?joined⟩, ?unique⟩
    case valid =>
      intro piece member
      rcases List.mem_map.mp member with ⟨item, _, rfl⟩
      exact piece_iff.mpr ⟨item, rfl⟩
    case joined => exact text.symm
    case unique =>
      rintro pieces ⟨valid, joined⟩
      apply eq_map_specification valid
      rw [joined, text]
  · intro zone millis
    have same := format?_ofPattern zone millis pattern
    refine ⟨same, ?_⟩
    rw [same, DateItem.write?]
    cases Moment.hasDate millis <;> rfl

end PercentNotation

end StreamQuery
