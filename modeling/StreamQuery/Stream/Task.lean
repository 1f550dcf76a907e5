import StreamQuery.Stream.Script
namespace StreamQuery

/-! Work that takes time is data: a tree of what it waits for. Time is counted in milliseconds, and
work goes on at the instant that its continuation is given. A piece of work opens sources by name;
what the environment answers is either a script or an error. -/

/-- The part of the work that is done as soon as it is asked for: it opens sources, and waits for
nothing. -/
inductive Opening (α : Type) where
  | done (value : α)
  | opening (name : String) (next : Except QueryError Script → Opening α)

namespace Opening

def map (transform : α → β) : Opening α → Opening β
  | .done value => .done (transform value)
  | .opening name next => .opening name fun answer => (next answer).map transform

def bind : Opening α → (α → Opening β) → Opening β
  | .done value, next => next value
  | .opening name next, continuation =>
      .opening name fun answer => (next answer).bind continuation

end Opening

inductive Task (α : Type) where
  | done (value : α)
  /-- Nothing happens before the deadline. -/
  | waiting (deadline : Nat) (resume : Nat → Task α)
  | opening (name : String) (next : Except QueryError Script → Task α)
  /-- The work never completes. -/
  | stuck

namespace Task

def map (transform : α → β) : Task α → Task β
  | .done value => .done (transform value)
  | .waiting deadline resume => .waiting deadline fun now => (resume now).map transform
  | .opening name next => .opening name fun answer => (next answer).map transform
  | .stuck => .stuck

def bind : Task α → Nat → (α → Nat → Task β) → Task β
  | .done value, now, next => next value now
  | .waiting deadline resume, _, next =>
      .waiting deadline fun now => (resume now).bind now next
  | .opening name answer, now, next =>
      .opening name fun script => (answer script).bind now next
  | .stuck, _, _ => .stuck

end Task

def Opening.toTask : Opening α → (α → Task β) → Task β
  | .done value, next => next value
  | .opening name next, continuation =>
      .opening name fun answer => (next answer).toTask continuation

/-! Two pieces of work that can fail go on side by side. At every instant the first one is taken as
far as it gets, then the second. The whole is done when both are; it fails as soon as one is seen
to have failed, and then the other is given up. -/

namespace Task

/-- The work never completes, but may still fail. -/
def failure : Task (Except ε α) → Task (Except ε β)
  | .done (.error error) => .done (.error error)
  | .done (.ok _) => .stuck
  | .waiting deadline resume => .waiting deadline fun now => (resume now).failure
  | .opening name next => .opening name fun answer => (next answer).failure
  | .stuck => .stuck

/-- The first piece of work waits for `deadline`, and `resume` takes it up together with whatever
the second has become. -/
def alongside (deadline : Nat) (resume : Nat → Task (Except ε β) → Task (Except ε (α × β))) :
    Task (Except ε β) → Task (Except ε (α × β))
  | .done (.error error) => .done (.error error)
  | .done (.ok value) => .waiting deadline fun now => resume now (.done (.ok value))
  | .waiting other next =>
      .waiting (min deadline other) fun now =>
        if deadline ≤ now then resume now (if other ≤ now then next now else .waiting other next)
        else alongside deadline resume (next now)
  | .opening name next => .opening name fun answer => alongside deadline resume (next answer)
  | .stuck => .waiting deadline fun now => resume now .stuck

def both : Task (Except ε α) → Task (Except ε β) → Task (Except ε (α × β))
  | .done (.error error), _ => .done (.error error)
  | .done (.ok value), second => second.map fun result => result.map fun other => (value, other)
  | .waiting deadline resume, second =>
      alongside deadline (fun now second => (resume now).both second) second
  | .opening name next, second => .opening name fun answer => (next answer).both second
  | .stuck, second => second.failure

end Task

end StreamQuery
