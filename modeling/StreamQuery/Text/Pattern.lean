namespace StreamQuery.Text

/-! Patterns of the `like` predicate. `%` stands for any run of characters, `_` for exactly one,
and a backslash takes the character after it literally; a backslash at the very end stands for
itself. -/

inductive PatternElement where
  | anyRun
  | anyOne
  | exactly (character : Char)
deriving DecidableEq, Repr

namespace PatternElement

def takes (character : Char) : PatternElement → Bool
  | .anyRun => false
  | .anyOne => true
  | .exactly wanted => wanted == character

/-- Of runs next to each other one is enough. -/
def runBefore : List PatternElement → List PatternElement
  | .anyRun :: rest => .anyRun :: rest
  | elements => .anyRun :: elements

end PatternElement

def patternElements : List Char → List PatternElement
  | [] => []
  | '%' :: rest => PatternElement.runBefore (patternElements rest)
  | '_' :: rest => .anyOne :: patternElements rest
  | ['\\'] => [.exactly '\\']
  | '\\' :: character :: rest => .exactly character :: patternElements rest
  | character :: rest => .exactly character :: patternElements rest

/-! The text and the elements are read side by side. A run takes nothing at first. Where the reading
gets stuck it goes back to the most recent run, which takes one more character. -/

/-- What is left of the text and of the elements. -/
structure PatternPlace where
  text : List Char
  elements : List PatternElement

/-- Between the two places there are only elements that take one character each. -/
def PatternPlace.Passes (start here : PatternPlace) : Prop :=
  ∃ passed : List PatternElement, start.elements = passed ++ here.elements ∧
    .anyRun ∉ passed ∧ start.text.drop passed.length = here.text

namespace PatternPlace

variable {start here : PatternPlace}

theorem passes_self (place : PatternPlace) : place.Passes place :=
  ⟨[], rfl, List.not_mem_nil, rfl⟩

theorem Passes.advance {character : Char} {text : List Char} {element : PatternElement}
    {rest : List PatternElement} (passes : start.Passes ⟨character :: text, element :: rest⟩)
    (takes : element.takes character) : start.Passes ⟨text, rest⟩ := by
  rcases passes with ⟨passed, elements, single, left⟩
  refine ⟨passed ++ [element], by simp [elements], ?_, ?_⟩
  · rw [List.mem_append, List.mem_singleton, not_or]
    refine ⟨single, fun run => ?_⟩
    subst run
    cases takes
  · rw [List.length_append, ← List.drop_drop, left]
    rfl

theorem Passes.length_text_le (passes : start.Passes here) :
    here.text.length ≤ start.text.length := by
  rcases passes with ⟨passed, _, _, left⟩
  rw [← left, List.length_drop]
  exact Nat.sub_le _ _

theorem Passes.length_elements_le (passes : start.Passes here) :
    here.elements.length ≤ start.elements.length := by
  rcases passes with ⟨passed, elements, _, _⟩
  rw [elements, List.length_append]
  exact Nat.le_add_left _ _

end PatternPlace

structure PatternScan where
  here : PatternPlace
  /-- The place behind the most recent run. -/
  resume : Option PatternPlace
  passes : ∀ start ∈ resume, start.Passes here

namespace PatternScan

def start (text : List Char) (elements : List PatternElement) : PatternScan :=
  ⟨⟨text, elements⟩, none, nofun⟩

def behindRun (place : PatternPlace) : PatternScan where
  here := place
  resume := some place
  passes _ same := Option.some.inj same ▸ place.passes_self

def goBack (resume : Option PatternPlace) : Option PatternScan :=
  resume.map fun place => behindRun ⟨place.text.tail, place.elements⟩

/-- One turn. There is none at the end of the text, and none where the reading is stuck without a
run to go back to. -/
def next : PatternScan → Option PatternScan
  | ⟨⟨[], _⟩, _, _⟩ => none
  | ⟨⟨_ :: _, []⟩, resume, _⟩ => goBack resume
  | ⟨⟨character :: text, element :: rest⟩, resume, passes⟩ =>
      if element = .anyRun then some (behindRun ⟨character :: text, rest⟩)
      else if takes : element.takes character then
        some ⟨⟨text, rest⟩, resume, fun start among => (passes start among).advance takes⟩
      else goBack resume

def origin (scan : PatternScan) : PatternPlace :=
  scan.resume.getD scan.here

theorem origin_passes (scan : PatternScan) : scan.origin.Passes scan.here := by
  rcases scan with ⟨here, _ | start, passes⟩
  · exact here.passes_self
  · exact passes start rfl

/-- An upper bound of the turns that are left. A run begins behind the one before it, and one that
takes more leaves less of the text. -/
def remaining (scan : PatternScan) : Nat :=
  scan.origin.text.length * (scan.origin.elements.length + 1) + scan.here.elements.length

theorem remaining_behindRun (place : PatternPlace) :
    (behindRun place).remaining =
      place.text.length * (place.elements.length + 1) + place.elements.length := rfl

theorem remaining_goBack {scan later : PatternScan} (unread : scan.here.text ≠ [])
    (turn : goBack scan.resume = some later) : later.remaining < scan.remaining := by
  rcases Option.map_eq_some_iff.mp turn with ⟨place, found, rfl⟩
  have origin : scan.origin = place := by simp only [PatternScan.origin, found, Option.getD_some]
  have longer := scan.origin_passes.length_text_le
  have unread := List.length_pos_iff.mpr unread
  rw [origin] at longer
  have room : place.elements.length + 1 ≤ place.text.length * (place.elements.length + 1) :=
    Nat.le_mul_of_pos_left _ (Nat.lt_of_lt_of_le unread longer)
  rw [remaining_behindRun, List.length_tail, Nat.sub_one_mul, remaining, origin]
  dsimp only
  omega

theorem remaining_next {scan later : PatternScan} (turn : scan.next = some later) :
    later.remaining < scan.remaining := by
  have texts := scan.origin_passes.length_text_le
  have places := scan.origin_passes.length_elements_le
  rcases scan with ⟨⟨_ | ⟨character, text⟩, _ | ⟨element, rest⟩⟩, resume, passes⟩
  · cases turn
  · cases turn
  · exact remaining_goBack (List.cons_ne_nil _ _) turn
  · simp only [next] at turn
    split at turn
    · cases turn
      have room := Nat.mul_le_mul texts (Nat.le_succ_of_le places)
      rw [remaining_behindRun, remaining]
      simp only [List.length_cons, Nat.succ_eq_add_one] at room ⊢
      omega
    · split at turn
      · cases turn
        cases resume with
        | some start => exact Nat.lt_succ_self _
        | none =>
            have fewer := Nat.mul_le_mul (Nat.le_succ text.length) (Nat.le_succ (rest.length + 1))
            exact Nat.add_lt_add_of_le_of_lt fewer (Nat.lt_succ_self _)
      · exact remaining_goBack (List.cons_ne_nil _ _) turn

def last (scan : PatternScan) : PatternScan :=
  match _turn : scan.next with
  | none => scan
  | some later => later.last
termination_by scan.remaining
decreasing_by exact remaining_next _turn

def accepts (scan : PatternScan) : Bool :=
  scan.here.text.isEmpty && scan.here.elements.all (· == .anyRun)

end PatternScan

def like (text pattern : String) : Bool :=
  (PatternScan.start text.toList (patternElements pattern.toList)).last.accepts

end StreamQuery.Text
