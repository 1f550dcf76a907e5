import StreamQuery.Time.DatePattern
namespace StreamQuery

/-! What a date pattern asks for, read character by character. The text that a pattern is put into
spells just that. -/

namespace DatePattern

def field? (letter : Char) (length : Nat) : Option DateField :=
  match letter, length with
  | 'y', 2 => some .shortYear
  | 'y', _ => some .year
  | 'M', 1 => some .month
  | 'M', 2 => some .monthPadded
  | 'M', 3 => some .monthShortName
  | 'M', _ => some .monthName
  | 'd', 1 => some .day
  | 'd', _ => some .dayPadded
  | 'H', 1 => some .hour
  | 'H', _ => some .hourPadded
  | 'h', 1 => some .halfDayHour
  | 'h', _ => some .halfDayHourPadded
  | 'm', 1 => some .minute
  | 'm', _ => some .minutePadded
  | 's', 1 => some .second
  | 's', _ => some .secondPadded
  | 'S', _ => some .milliseconds
  | 'E', length => some (if length ≤ 3 then .weekdayShortName else .weekdayName)
  | 'a', _ => some .halfDay
  | 'Z', _ => some .offset
  | 'X', _ => some .offsetWithColon
  | 'z', _ => some .zoneName
  | _, _ => none

def runItems (letter : Char) (length : Nat) : List DateItem :=
  match field? letter length with
  | some field => [.field field]
  | none => List.replicate length (.literal letter)

/-- The reader is between runs, in a run of one character, or in quoted text. A single quote opens
quoted text once the character after it is known not to be a quote. -/
inductive ReaderState where
  | between
  | inRun (letter : Char) (length : Nat)
  | afterQuote
  | quoted
deriving DecidableEq, Repr

def itemsFrom : ReaderState → List Char → List DateItem
  | .between, [] | .afterQuote, [] | .quoted, [] => []
  | .inRun letter length, [] => runItems letter length
  | .between, character :: rest =>
      if character == '\'' then itemsFrom .afterQuote rest
      else itemsFrom (.inRun character 1) rest
  | .inRun letter length, character :: rest =>
      if character == letter then itemsFrom (.inRun letter (length + 1)) rest
      else
        runItems letter length ++
          if character == '\'' then itemsFrom .afterQuote rest
          else itemsFrom (.inRun character 1) rest
  | .afterQuote, character :: rest =>
      if character == '\'' then .literal '\'' :: itemsFrom .between rest
      else .literal character :: itemsFrom .quoted rest
  | .quoted, character :: rest =>
      if character == '\'' then itemsFrom .between rest
      else .literal character :: itemsFrom .quoted rest

def items (pattern : String) : List DateItem :=
  itemsFrom .between pattern.toList

/-! Runs and quoted text, taken in at once. -/

theorem itemsFrom_inRun (letter : Char) (length : Nat) (text : List Char) :
    itemsFrom (.inRun letter length) text =
      runItems letter (length + (text.takeWhile (· == letter)).length) ++
        itemsFrom .between (text.dropWhile (· == letter)) := by
  induction text generalizing length with
  | nil => simp [itemsFrom]
  | cons character rest induction =>
      rw [itemsFrom, List.takeWhile_cons, List.dropWhile_cons]
      by_cases same : character == letter
      · rw [if_pos same, if_pos same, if_pos same, induction, List.length_cons]
        simp only [Nat.add_assoc, Nat.add_comm 1]
      · rw [if_neg same, if_neg same, if_neg same]
        rfl

theorem itemsFrom_quoted (text : List Char) : itemsFrom .quoted text =
    (text.takeWhile (· != '\'')).map .literal ++
      itemsFrom .between ((text.dropWhile (· != '\'')).drop 1) := by
  induction text with
  | nil => rfl
  | cons character rest induction =>
      rw [itemsFrom, List.takeWhile_cons, List.dropWhile_cons]
      by_cases quote : character = '\''
      · simp [quote]
      · simp [quote, induction]

theorem itemsFrom_afterQuote {text : List Char} (other : text.head? ≠ some '\'') :
    itemsFrom .afterQuote text = itemsFrom .quoted text := by
  cases text with
  | nil => rfl
  | cons character rest =>
      have plain : character ≠ '\'' := fun same => other (congrArg some same)
      simp [itemsFrom, plain]

/-! What is pushed spells the items. -/

theorem conversion?_eq (letter : Char) (run : Nat) : conversion? letter run =
    (field? letter run).map fun field => String.ofList ('%' :: field.conversion) := by
  fun_cases field? letter run
  case case18 =>
    rw [conversion?]
    split <;> rfl
  all_goals first | rfl | (rw [conversion?] <;> first | rfl | assumption)

open PercentNotation

theorem spell_append (first second : List DateItem) :
    spell (first ++ second) = spell first ++ spell second :=
  List.flatMap_append

theorem toList_pushLiteral (out : String) (character : Char) :
    (pushLiteral out character).toList = out.toList ++ (DateItem.literal character).specification := by
  simp only [pushLiteral, DateItem.specification]
  split
  · rw [String.toList_append]
    rfl
  · rw [String.toList_push]

theorem toList_foldl_pushLiteral (out : String) (characters : List Char) :
    (characters.foldl pushLiteral out).toList = out.toList ++ spell (characters.map .literal) := by
  induction characters generalizing out with
  | nil => exact (List.append_nil _).symm
  | cons character rest induction =>
      rw [List.foldl_cons, induction, toList_pushLiteral, List.append_assoc]
      rfl

theorem toList_pushRun (out : String) (letter : Char) (run : Nat) :
    (match conversion? letter run with
      | some conversion => out ++ conversion
      | none => (List.replicate run letter).foldl pushLiteral out).toList =
      out.toList ++ spell (runItems letter run) := by
  rw [conversion?_eq, runItems]
  cases field? letter run with
  | none =>
      rw [Option.map_none, toList_foldl_pushLiteral, List.map_replicate]
  | some field =>
      rw [Option.map_some, String.toList_append, String.toList_ofList]
      simp [spell, DateItem.specification]

theorem two_le_run_iff {character : Char} {rest : List Char} :
    2 ≤ (rest.takeWhile (· == character)).length + 1 ↔ rest.head? = some character := by
  cases rest with
  | nil => simp
  | cons next rest =>
      rw [List.takeWhile_cons, List.head?_cons, Option.some.injEq]
      by_cases same : next = character <;> simp [same]

/-- A pattern is put into the text that spells what it asks for. -/
theorem toList_translate (out : String) (text : List Char) :
    (translate out text).toList = out.toList ++ spell (itemsFrom .between text) := by
  fun_induction translate out text with
  | case1 out => exact (List.append_nil _).symm
  | case2 out rest run twice induction =>
      rcases List.head?_eq_some_iff.mp (two_le_run_iff.mp twice) with ⟨later, rfl⟩
      rw [induction, String.toList_push, List.append_assoc]
      rfl
  | case3 out rest run once induction =>
      have other : rest.head? ≠ some '\'' := mt two_le_run_iff.mpr once
      have opened : itemsFrom .between ('\'' :: rest) = itemsFrom .afterQuote rest := rfl
      rw [induction, toList_foldl_pushLiteral, List.append_assoc, ← spell_append, opened,
        itemsFrom_afterQuote other, itemsFrom_quoted]
  | case4 out character rest run other pushed induction =>
      have begun : itemsFrom .between (character :: rest) = itemsFrom (.inRun character 1) rest :=
        if_neg (mt eq_of_beq other)
      have behind : pushed.toList = out.toList ++ spell (runItems character run) :=
        toList_pushRun out character run
      rw [induction, behind, List.append_assoc, ← spell_append, begun, itemsFrom_inRun,
        Nat.add_comm 1]

theorem ofPattern_eq (pattern : String) :
    (ofPattern pattern).toList = spell (items pattern) := by
  rw [ofPattern, toList_translate]
  rfl

end DatePattern

end StreamQuery
