import StreamQuery.Plan.Source
import StreamQuery.Proofs.Stream.Worlds
namespace StreamQuery

/-! A join takes one side row by row. What a row and its accepted pairs become is a block of the
result, and the kinds of joins differ only in the block of a row without an accepted pair. -/

namespace JoinInput

def leftBlock (input : JoinInput) : Value × List Value → List Value
  | (row, matched) => if matched.isEmpty then [input.combine row .null] else matched

def rightBlock (input : JoinInput) : Value × List Value → List Value
  | (row, matched) => if matched.isEmpty then [input.combine input.nullLeft row] else matched

end JoinInput

namespace NestedLoop

inductive Selects (condition : Option Predicate) (context : Context) :
    World → List Value → List Value → World → Prop
  | nil : Selects condition context world [] [] world
  | accepted : (accepts condition context pair).ComesTo world (.ok true) between →
      Selects condition context between rest matched later →
      Selects condition context world (pair :: rest) (pair :: matched) later
  | rejected : (accepts condition context pair).ComesTo world (.ok false) between →
      Selects condition context between rest matched later →
      Selects condition context world (pair :: rest) matched later

inductive Blocks (condition : Option Predicate) (context : Context) (pairs : Value → List Value) :
    World → List (Value × List Value) → World → Prop
  | nil : Blocks condition context pairs world [] world
  | cons : Selects condition context world (pairs row) matched between →
      Blocks condition context pairs between rest later →
      Blocks condition context pairs world ((row, matched) :: rest) later

variable {condition : Option Predicate} {context : Context} {pairs padding : Value → List Value}
  {world later : World} {input : JoinInput}

theorem acceptedOf_comesTo {candidates matched : List Value} :
    (acceptedOf condition context candidates).ComesTo world (.ok matched) later ↔
      Selects condition context world candidates matched later := by
  induction candidates generalizing world matched with
  | nil =>
      rw [acceptedOf, Evaluation.comesTo_ok]
      constructor
      · rintro ⟨same, rfl⟩
        cases same
        exact .nil
      · rintro ⟨⟩
        exact ⟨rfl, rfl⟩
  | cons pair rest induction =>
      simp only [acceptedOf, Evaluation.comesTo_andThen, Evaluation.comesTo_map, induction]
      constructor
      · rintro ⟨holds, between, tried, others, selects, rfl⟩
        cases holds with
        | true => exact .accepted tried selects
        | false => exact .rejected tried selects
      · intro selects
        cases selects with
        | accepted tried selects => exact ⟨true, _, tried, _, selects, rfl⟩
        | rejected tried selects => exact ⟨false, _, tried, _, selects, rfl⟩

theorem joinEach_comesTo {rows joined : List Value} :
    (joinEach condition context pairs padding rows).ComesTo world (.ok joined) later ↔
      ∃ blocks, blocks.map (·.1) = rows ∧ Blocks condition context pairs world blocks later ∧
        blocks.flatMap (fun (row, matched) => if matched.isEmpty then padding row else matched) =
          joined := by
  induction rows generalizing world joined with
  | nil =>
      rw [joinEach, Evaluation.comesTo_ok]
      constructor
      · rintro ⟨same, rfl⟩
        cases same
        exact ⟨[], rfl, .nil, rfl⟩
      · rintro ⟨blocks, same, taken, rfl⟩
        cases List.map_eq_nil_iff.mp same
        cases taken
        exact ⟨rfl, rfl⟩
  | cons row rest induction =>
      simp only [joinEach, Evaluation.comesTo_andThen, Evaluation.comesTo_map, acceptedOf_comesTo,
        induction]
      constructor
      · rintro ⟨matched, between, selects, others, ⟨blocks, rfl, taken, rfl⟩, rfl⟩
        exact ⟨(row, matched) :: blocks, rfl, .cons selects taken, rfl⟩
      · rintro ⟨blocks, same, taken, rfl⟩
        cases taken with
        | nil => cases same
        | cons selects taken =>
            cases same
            exact ⟨_, _, selects, _, ⟨_, rfl, taken, rfl⟩, rfl⟩

/-- What the kinds of joins make of two sides. Those that keep a side pad the rows of it that have
no partner; an inner join is told by the left join that it does the same work as. -/
inductive Emits (condition : Option Predicate) (context : Context) (input : JoinInput)
    (world later : World) : JoinKind → List Value → Prop
  | inner : blocks.map (·.1) = input.left →
      Blocks condition context (fun row => input.right.map (input.combine row)) world blocks later →
      (join .left input condition context).ComesTo world (.ok (blocks.flatMap input.leftBlock))
        later →
      Emits condition context input world later .inner (blocks.flatMap (·.2))
  | cross : blocks.map (·.1) = input.left →
      Blocks condition context (fun row => input.right.map (input.combine row)) world blocks later →
      Emits condition context input world later .cross (blocks.flatMap (·.2))
  | left : blocks.map (·.1) = input.left →
      Blocks condition context (fun row => input.right.map (input.combine row)) world blocks later →
      Emits condition context input world later .left (blocks.flatMap input.leftBlock)
  | right : blocks.map (·.1) = input.right →
      Blocks condition context (fun row => input.left.map (input.combine · row)) world blocks
        later →
      Emits condition context input world later .right (blocks.flatMap input.rightBlock)

theorem matched_of_unpadded (blocks : List (Value × List Value)) :
    (blocks.flatMap fun (_, matched) => if matched.isEmpty then [] else matched) =
      blocks.flatMap (·.2) := by
  congr 1
  funext block
  rcases block with ⟨row, _ | _⟩ <;> rfl

theorem join_emits {kind : JoinKind} {joined : List Value}
    (comes : (join kind input condition context).ComesTo world (.ok joined) later) :
    Emits condition context input world later kind joined := by
  cases kind with
  | inner =>
      rcases joinEach_comesTo.mp comes with ⟨blocks, rows, taken, rfl⟩
      rw [matched_of_unpadded]
      exact .inner rows taken (joinEach_comesTo.mpr ⟨blocks, rows, taken, rfl⟩)
  | cross =>
      rcases joinEach_comesTo.mp comes with ⟨blocks, rows, taken, rfl⟩
      rw [matched_of_unpadded]
      exact .cross rows taken
  | left =>
      rcases joinEach_comesTo.mp comes with ⟨blocks, rows, taken, rfl⟩
      exact .left rows taken
  | right =>
      rcases joinEach_comesTo.mp comes with ⟨blocks, rows, taken, rfl⟩
      exact .right rows taken

end NestedLoop

end StreamQuery
