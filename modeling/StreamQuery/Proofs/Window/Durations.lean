import Mathlib.Data.List.DropRight
import StreamQuery.Proofs.Number.Digits
import StreamQuery.Proofs.Results
import StreamQuery.Window.Basic
namespace StreamQuery

/-! Durations in texts and in window calls. A text is a duration exactly if it has the form of one
and its milliseconds fit, and a time window has the durations that its call gives. -/

namespace Text

variable {characters rest : List Char}

theorem trimCharacters_of_suffix (suffix : rest <:+ trimCharacters characters) :
    trimCharacters rest = dropBlanks rest := by
  apply List.rdropWhile_eq_self_iff.mpr
  intro present
  have within : dropBlanks rest <:+ trimCharacters characters :=
    (List.dropWhile_suffix isBlank).trans suffix
  rw [within.getLast present]
  exact List.rdropWhile_last_not isBlank _ _

theorem trimCharacters_append {blanks : List Char}
    (blank : ∀ character ∈ blanks, isBlank character)
    (solid : ∀ character ∈ rest, isBlank character = false) :
    trimCharacters (blanks ++ rest) = rest := by
  have dropped : dropBlanks (blanks ++ rest) = dropBlanks rest :=
    List.dropWhile_append_of_pos blank
  rw [trimCharacters, dropped]
  exact trimCharacters_of_not_isBlank solid

end Text

namespace Digits

theorem nat?_eq_some_iff {characters : List Char} {amount : Nat} :
    nat? characters = some amount ↔ characters ≠ [] ∧ (∀ digit ∈ characters, digit.isDigit) ∧
      Nat.ofDigitChars 10 characters 0 = amount := by
  have all_iff : characters.all isDigit ↔ ∀ digit ∈ characters, digit.isDigit := by
    simp only [List.all_eq_true, isDigit_eq]
  rw [nat?, ← all_iff]
  by_cases numeric : characters.all isDigit
  · rw [toNat_eq (List.all_eq_true.mp numeric)]
    simp [numeric]
  · simp [numeric]

theorem split_append {digits rest : List Char} (numeric : ∀ digit ∈ digits, digit.isDigit)
    (other : ∀ character ∈ rest, isDigit character = false) :
    (digits ++ rest).takeWhile isDigit = digits ∧ (digits ++ rest).dropWhile isDigit = rest := by
  have valid : ∀ digit ∈ digits, isDigit digit := fun digit member =>
    (isDigit_eq digit).trans (numeric digit member)
  have kept : rest.takeWhile isDigit = [] ∧ rest.dropWhile isDigit = rest := by
    cases rest with
    | nil => exact ⟨rfl, rfl⟩
    | cons character rest => simp [other character List.mem_cons_self]
  rw [List.takeWhile_append_of_pos valid, List.dropWhile_append_of_pos valid, kept.1, kept.2,
    List.append_nil]
  exact ⟨rfl, rfl⟩

end Digits

namespace Duration

def units : List (String × Nat) :=
  [("", 1), ("ms", 1), ("S", 1), ("s", 1000), ("m", 60000), ("h", 3600000), ("H", 3600000),
   ("d", 86400000)]

theorem unitMillis?_eq_some_iff {unit : String} {factor : Nat} :
    unitMillis? unit = some factor ↔ (unit, factor) ∈ units := by
  constructor
  · intro known
    unfold unitMillis? at known
    split at known <;> cases known <;> decide
  · have known : ∀ entry ∈ units, unitMillis? entry.1 = some entry.2 := by decide
    exact known (unit, factor)

/-- A unit is no shorter than a millisecond, and neither blanks nor digits are in it. -/
theorem units_solid : ∀ entry ∈ units, 0 < entry.2 ∧ ∀ character ∈ entry.1.toList,
    Text.isBlank character = false ∧ Digits.isDigit character = false := by
  have checked : units.all fun entry => 0 < entry.2 && entry.1.toList.all fun character =>
      !Text.isBlank character && !Digits.isDigit character := by decide
  simpa using checked

/-- One or more digits, perhaps blanks, and a unit write so many milliseconds. -/
inductive Writes : List Char → Nat → Prop
  | intro {digits blanks : List Char} {unit : String} {factor : Nat} : digits ≠ [] →
      (∀ digit ∈ digits, digit.isDigit) → (∀ blank ∈ blanks, Text.isBlank blank) →
      (unit, factor) ∈ units →
      Writes (digits ++ (blanks ++ unit.toList)) (Nat.ofDigitChars 10 digits 0 * factor)

theorem ofTrimmed?_eq_some_iff {text : List Char} {millis : Nat} :
    ofTrimmed? text = some millis ↔ ∃ amount factor,
      Digits.nat? (text.takeWhile Digits.isDigit) = some amount ∧
      (Text.trim (String.ofList (text.dropWhile Digits.isDigit)), factor) ∈ units ∧
      amount * factor < UInt64.size ∧ amount * factor = millis := by
  simp only [ofTrimmed?, Option.bind_eq_bind, Option.bind_eq_some_iff, unitMillis?_eq_some_iff,
    Option.ite_none_right_eq_some, Option.some.injEq]
  constructor
  · rintro ⟨amount, digits, factor, unit, ⟨_, fits⟩, same⟩
    exact ⟨amount, factor, digits, unit, fits, same⟩
  · rintro ⟨amount, factor, digits, unit, fits, same⟩
    have positive : 0 < factor := (units_solid _ unit).1
    have small : amount < UInt64.size :=
      Nat.lt_of_le_of_lt (Nat.le_mul_of_pos_right _ positive) fits
    exact ⟨amount, digits, factor, unit, ⟨small, fits⟩, same⟩

variable {characters : List Char} {millis : Nat}

theorem Writes.ofTrimmed? {text : List Char} (writes : Writes text millis)
    (fits : millis < UInt64.size) : ofTrimmed? text = some millis := by
  cases writes with
  | @intro digits blanks unit factor present numeric blank known =>
      have solid := (units_solid _ known).2
      have other : ∀ character ∈ blanks ++ unit.toList, Digits.isDigit character = false := by
        intro character member
        rcases List.mem_append.mp member with inside | inside
        · -- A blank that is a digit would be none.
          apply Bool.eq_false_iff.mpr
          intro digit
          have clash := Text.isBlank_of_isDigit digit
          rw [blank character inside] at clash
          cases clash
        · exact (solid character inside).2
      have parts := Digits.split_append numeric other
      have trimmed : Text.trim (String.ofList (blanks ++ unit.toList)) = unit := by
        rw [Text.trim, String.toList_ofList,
          Text.trimCharacters_append blank fun character inside => (solid character inside).1,
          String.ofList_toList]
      apply ofTrimmed?_eq_some_iff.mpr
      rw [parts.1, parts.2, trimmed]
      exact ⟨_, factor, Digits.nat?_eq_some_iff.mpr ⟨present, numeric, rfl⟩, known, fits, rfl⟩

theorem writes_of_ofTrimmed? (reads : ofTrimmed? (Text.trimCharacters characters) = some millis) :
    Writes (Text.trimCharacters characters) millis ∧ millis < UInt64.size := by
  rcases ofTrimmed?_eq_some_iff.mp reads with ⟨amount, factor, number, known, fits, rfl⟩
  rcases Digits.nat?_eq_some_iff.mp number with ⟨present, numeric, rfl⟩
  refine ⟨?_, fits⟩
  generalize equal : Text.trimCharacters characters = text at *
  have suffix : text.dropWhile Digits.isDigit <:+ Text.trimCharacters characters :=
    equal ▸ List.dropWhile_suffix _
  rw [Text.trim, String.toList_ofList, Text.trimCharacters_of_suffix suffix] at known
  have blank : ∀ character ∈ (text.dropWhile Digits.isDigit).takeWhile Text.isBlank,
      Text.isBlank character := fun _ => List.mem_takeWhile_imp
  have writes := Writes.intro present numeric blank known
  rw [String.toList_ofList, Text.dropBlanks, List.takeWhile_append_dropWhile,
    List.takeWhile_append_dropWhile] at writes
  exact writes

/-- The text without the blanks around it writes so many milliseconds, and they fit. -/
def Spells (text : String) (millis : Nat) : Prop :=
  Writes (Text.trim text).toList millis ∧ millis < UInt64.size

theorem ofTrimmed?_iff_spells {text : String} :
    ofTrimmed? (Text.trimCharacters text.toList) = some millis ↔ Spells text millis := by
  rw [Spells, Text.trim, String.toList_ofList]
  constructor
  · exact writes_of_ofTrimmed?
  · rintro ⟨writes, fits⟩
    exact writes.ofTrimmed? fits

theorem ofString_eq_ok_iff {text : String} : ofString text = .ok millis ↔ Spells text millis := by
  rw [← ofTrimmed?_iff_spells, ofString]
  cases ofTrimmed? (Text.trimCharacters text.toList) with
  | none => simp
  | some read => simp

theorem ofString_eq_error_iff {text : String} {error : QueryError} :
    ofString text = .error error ↔
      error = .cast (Text.trim text) "duration" ∧ ∀ millis, ¬Spells text millis := by
  simp only [← ofTrimmed?_iff_spells, ofString]
  cases ofTrimmed? (Text.trimCharacters text.toList) with
  | none => simp [eq_comm]
  | some read => simp

end Duration

/-- An argument of a window call: a text spells a duration, and a number counts milliseconds. -/
def Expr.Lasts : Expr → Nat → Prop
  | .literal (.string text), millis => Duration.Spells text millis
  | .literal (.integer number), millis => number.toInt = millis
  | _, _ => False

def Expr.IsInteger (expr : Expr) : Prop :=
  ∃ number, expr = .literal (.integer number)

/-- The time windows that a call asks for: one duration is both size and slide, and of two
durations one is the size and the other the slide. A window call that gives numbers only counts
records. -/
inductive GroupFeature.AsksTime : GroupFeature → List Expr → Nat → Nat → Prop
  | interval {argument : Expr} {size : Nat} : argument.Lasts size →
      AsksTime .interval [argument] size size
  | tumbling {text : String} {size : Nat} : Duration.Spells text size →
      AsksTime .window [.literal (.string text)] size size
  | sizeFirst {first second : Expr} {size slide : Nat} : ¬(first.IsInteger ∧ second.IsInteger) →
      first.Lasts size → second.Lasts slide → AsksTime .window [first, second] size slide
  | slideFirst {first second : Expr} {size slide : Nat} :
      ¬(first.IsInteger ∧ second.IsInteger) → first.Lasts slide → second.Lasts size →
      AsksTime .window [first, second] size slide

namespace Window

variable {call : Call} {size slide millis : Nat}

theorem positiveDuration_eq_ok_iff {given : Nat} :
    positiveDuration call given = .ok millis ↔ given = millis ∧ 0 < millis := by
  rw [positiveDuration]
  split
  · next zero =>
      constructor
      · intro failed
        cases failed
      · rintro ⟨same, positive⟩
        omega
  · next some =>
      constructor
      · intro same
        cases same
        exact ⟨rfl, Nat.pos_of_ne_zero some⟩
      · rintro ⟨rfl, positive⟩
        rfl

theorem duration_eq_ok_iff (call : Call) {argument : Expr} :
    duration call argument = .ok millis ↔ argument.Lasts millis ∧ 0 < millis := by
  unfold duration
  split
  · next text =>
      rw [Expr.Lasts, ← Duration.ofString_eq_ok_iff]
      cases Duration.ofString text with
      | error error => simp [Except.bind]
      | ok read => simp [Except.bind, positiveDuration_eq_ok_iff]
  · next number =>
      rw [positiveDuration_eq_ok_iff, Expr.Lasts]
      omega
  · next no_text no_number =>
      constructor
      · intro failed
        cases failed
      · rintro ⟨lasts, _⟩
        unfold Expr.Lasts at lasts
        split at lasts
        · exact (no_text _ rfl).elim
        · exact (no_number _ rfl).elim
        · exact lasts.elim

theorem tumbling_eq_ok_iff {argument : Expr} {window : Window} :
    tumbling call argument = .ok window ↔
      ∃ size, (argument.Lasts size ∧ 0 < size) ∧ window = .time size size := by
  simp only [tumbling, ← duration_eq_ok_iff call]
  cases duration call argument with
  | error error => simp [Except.map]
  | ok size => simp [Except.map, eq_comm]

theorem sliding_eq_ok_iff {first second : Expr} {window : Window} :
    sliding call first second = .ok window ↔ ∃ one other,
      (first.Lasts one ∧ 0 < one) ∧ (second.Lasts other ∧ 0 < other) ∧
      window = .time (max one other) (min one other) := by
  simp only [sliding, ← duration_eq_ok_iff call]
  cases duration call first with
  | error error => simp [bind, Except.bind]
  | ok one =>
      cases duration call second with
      | error error => simp [bind, Except.bind]
      | ok other => simp [bind, Except.bind, eq_comm]

end Window

namespace GroupFeature

variable {call : Call} {arguments : List Compiled} {size slide : Nat}

theorem compileWindow_two {first second : Expr} (two : call.arguments = [first, second])
    (durations : ¬(first.IsInteger ∧ second.IsInteger)) :
    compileWindow call arguments = Window.sliding call first second := by
  unfold compileWindow
  rw [two]
  split
  · next same => cases same
  · next same => cases same
  · next same => cases same
  · next same =>
      cases same
      exact (durations ⟨⟨_, rfl⟩, ⟨_, rfl⟩⟩).elim
  · next same =>
      injections
      subst_vars
      rfl
  · next no_pair _ => exact (no_pair _ _ rfl).elim

theorem lasts_of_tumbling {argument : Expr}
    (accepts : Window.tumbling call argument = .ok (.time size slide)) :
    argument.Lasts size ∧ 0 < size ∧ slide = size := by
  rcases Window.tumbling_eq_ok_iff.mp accepts with ⟨_, ⟨lasts, positive⟩, same⟩
  cases same
  exact ⟨lasts, positive, rfl⟩

theorem asksTime_of_sliding {first second : Expr}
    (durations : ¬(first.IsInteger ∧ second.IsInteger))
    (accepts : Window.sliding call first second = .ok (.time size slide)) :
    1 ≤ slide ∧ slide ≤ size ∧ AsksTime .window [first, second] size slide := by
  rcases Window.sliding_eq_ok_iff.mp accepts with
    ⟨one, other, ⟨lasts, positive⟩, ⟨lastsOther, positiveOther⟩, sizes⟩
  rcases Nat.le_total other one with below | below
  · rw [Nat.max_eq_left below, Nat.min_eq_right below] at sizes
    cases sizes
    exact ⟨positiveOther, below, .sizeFirst durations lasts lastsOther⟩
  · rw [Nat.max_eq_right below, Nat.min_eq_left below] at sizes
    cases sizes
    exact ⟨positive, below, .slideFirst durations lasts lastsOther⟩

theorem asksTime_of_compile {feature : GroupFeature}
    (accepts : feature.compile call arguments = .ok (.time size slide)) :
    1 ≤ slide ∧ slide ≤ size ∧ feature.AsksTime call.arguments size slide := by
  cases feature with
  | interval =>
      simp only [compile, compileInterval] at accepts
      split at accepts
      · next argument same =>
          rcases lasts_of_tumbling accepts with ⟨lasts, positive, rfl⟩
          rw [same]
          exact ⟨positive, Nat.le_refl _, .interval lasts⟩
      · cases accepts
  | window =>
      simp only [compile, compileWindow] at accepts
      split at accepts
      · rcases exists_of_map_ok accepts with ⟨_, _, same⟩
        cases same
      · next text same =>
          rcases lasts_of_tumbling accepts with ⟨lasts, positive, rfl⟩
          rw [same]
          exact ⟨positive, Nat.le_refl _, .tumbling lasts⟩
      · rcases exists_of_map_ok accepts with ⟨_, _, same⟩
        cases same
      · next records skipped _ =>
          have counts : Ensures
              (do .ok (.count (← Window.recordCount call records)
                (← Window.recordCount call skipped))) (· ≠ Window.time size slide) :=
            (ensures_true _).bind fun _ _ => (ensures_true _).bind fun _ _ => ensures_ok nofun
          exact (counts _ accepts rfl).elim
      · next first second no_counts same =>
          have durations : ¬(first.IsInteger ∧ second.IsInteger) := by
            rintro ⟨⟨_, rfl⟩, ⟨_, rfl⟩⟩
            exact no_counts _ _ rfl rfl
          rw [same]
          exact asksTime_of_sliding durations accepts
      · cases accepts

theorem compile_of_asksTime {feature : GroupFeature} (positive : 1 ≤ slide) (short : slide ≤ size)
    (asks : feature.AsksTime call.arguments size slide) :
    feature.compile call arguments = .ok (.time size slide) := by
  have long : 0 < size := Nat.lt_of_lt_of_le positive short
  generalize equal : call.arguments = parts at asks
  cases asks with
  | interval lasts =>
      rw [compile, compileInterval, equal]
      exact Window.tumbling_eq_ok_iff.mpr ⟨_, ⟨lasts, long⟩, rfl⟩
  | tumbling spells =>
      simp only [compile, compileWindow, equal]
      exact Window.tumbling_eq_ok_iff.mpr ⟨_, ⟨spells, long⟩, rfl⟩
  | sizeFirst durations lasts lastsOther =>
      rw [compile, compileWindow_two equal durations]
      apply Window.sliding_eq_ok_iff.mpr
      exact ⟨size, slide, ⟨lasts, long⟩, ⟨lastsOther, positive⟩, by simp [short]⟩
  | slideFirst durations lasts lastsOther =>
      rw [compile, compileWindow_two equal durations]
      apply Window.sliding_eq_ok_iff.mpr
      exact ⟨slide, size, ⟨lasts, positive⟩, ⟨lastsOther, long⟩, by simp [short]⟩

end GroupFeature

/-- A text is a duration exactly if it spells one, and the time windows that are accepted are those
whose durations the call gives, none of them shorter than a millisecond. -/
theorem Window.durations_decide :
    (∀ text millis, Duration.ofString text = .ok millis ↔ Duration.Spells text millis) ∧
    (∀ text error, Duration.ofString text = .error error ↔
      error = .cast (Text.trim text) "duration" ∧ ∀ millis, ¬Duration.Spells text millis) ∧
    ∀ (feature : GroupFeature) (call : Call) (arguments : List Compiled) (size slide : Nat),
      feature.compile call arguments = .ok (.time size slide) ↔
        1 ≤ slide ∧ slide ≤ size ∧ feature.AsksTime call.arguments size slide := by
  refine ⟨fun _ _ => Duration.ofString_eq_ok_iff, fun _ _ => Duration.ofString_eq_error_iff, ?_⟩
  intro feature call arguments size slide
  constructor
  · exact GroupFeature.asksTime_of_compile
  · rintro ⟨positive, short, asks⟩
    exact GroupFeature.compile_of_asksTime positive short asks

example : Duration.ofString " 2 h\t" = .ok 7200000 := by rfl
example : Duration.ofString "213503982335d" = .error (.cast "213503982335d" "duration") := by
  rfl

end StreamQuery
