import StreamQuery.Stream.Task
namespace StreamQuery

/-! An evaluation is asked for first, and runs afterwards. Asking opens the sources that are read
eagerly; running takes time and yields a result or an error. -/

abbrev Evaluation (α : Type) :=
  Opening (Nat → Task (Except QueryError α))

namespace Evaluation

def ofExcept (result : Except QueryError α) : Evaluation α :=
  .done fun _ => .done result

def ok (value : α) : Evaluation α :=
  ofExcept (.ok value)

/-- The result goes by the instant at which it is asked for. -/
def reading (read : Nat → Except QueryError α) : Evaluation α :=
  .done fun now => .done (read now)

def run (evaluation : Evaluation α) (now : Nat) : Task (Except QueryError α) :=
  evaluation.toTask fun work => work now

/-- The evaluation is asked for only when it runs. -/
def defer (evaluation : Evaluation α) : Evaluation α :=
  .done evaluation.run

def thenCheck (evaluation : Evaluation α) (next : α → Except QueryError β) : Evaluation β :=
  evaluation.map fun work now => (work now).map fun result => result.bind next

def map (transform : α → β) (evaluation : Evaluation α) : Evaluation β :=
  evaluation.thenCheck fun value => .ok (transform value)

def andThen (evaluation : Evaluation α) (next : α → Evaluation β) : Evaluation β :=
  Opening.map (fun work now =>
    (work now).bind now fun result now =>
      match result with
      | .ok value => (next value).run now
      | .error error => .done (.error error)) evaluation

/-- Both are asked for, in order, and then run side by side. -/
def both (first : Evaluation α) (second : Evaluation β) : Evaluation (α × β) :=
  Opening.bind first fun firstWork =>
    Opening.map (fun secondWork now => (firstWork now).both (secondWork now)) second

def all : List (Evaluation α) → Evaluation (List α)
  | [] => ok []
  | first :: rest => map (fun (value, values) => value :: values) (both first (all rest))

end Evaluation

end StreamQuery
