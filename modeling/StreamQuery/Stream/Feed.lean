import StreamQuery.Stream.Evaluation
namespace StreamQuery

/-! A feed is a sequence of items that come when they are asked for, as data: what it does now, and
how it goes on from the instant of the next request. -/

inductive Feed (α : Type) where
  | finished
  | item (item : Except QueryError α) (rest : Nat → Feed α)
  /-- Nothing comes before the deadline. -/
  | waiting (deadline : Nat) (resume : Nat → Feed α)
  | opening (name : String) (next : Except QueryError Script → Feed α)
  /-- Nothing ever comes again. -/
  | silent

abbrev Stream (α : Type) := Nat → Feed α

namespace Feed

def emit : List (Except QueryError α) → Stream α → Stream α
  | [], rest => rest
  | entry :: entries, rest => fun _ => .item entry (emit entries rest)

def ofItems (items : List (Except QueryError α)) : Stream α :=
  emit items fun _ => .finished

def ofResult : Except QueryError (List α) → Stream α
  | .ok values => ofItems (values.map .ok)
  | .error error => ofItems [.error error]

def ofDeliveries (ends : Bool) : List Delivery → Stream Value
  | [] => fun _ => if ends then .finished else .silent
  | delivery :: rest => fun now =>
      if delivery.after = 0 then .item delivery.item (ofDeliveries ends rest)
      else .waiting (now + delivery.after) fun _ => .item delivery.item (ofDeliveries ends rest)

def ofScript (script : Script) : Stream Value :=
  ofDeliveries script.ends script.deliveries

/-- The feed of a piece of work: it goes on as its result says. -/
def afterTask : Task α → Nat → (α → Stream β) → Feed β
  | .done value, now, next => next value now
  | .waiting deadline resume, _, next => .waiting deadline fun now => afterTask (resume now) now next
  | .opening name answer, now, next => .opening name fun script => afterTask (answer script) now next
  | .stuck, _, _ => .silent

def first : Feed α → Task (Option (Except QueryError α))
  | .finished => .done none
  | .item entry _ => .done (some entry)
  | .waiting deadline resume => .waiting deadline fun now => (resume now).first
  | .opening name next => .opening name fun answer => (next answer).first
  | .silent => .stuck

def collect (collected : List α) : Feed α → Nat → Task (Except QueryError (List α))
  | .finished, _ => .done (.ok collected.reverse)
  | .item (.error error) _, _ => .done (.error error)
  | .item (.ok value) rest, now => collect (value :: collected) (rest now) now
  | .waiting deadline resume, _ =>
      .waiting deadline fun now => collect collected (resume now) now
  | .opening name next, now => .opening name fun answer => collect collected (next answer) now
  | .silent, _ => .stuck

def map (transform : α → β) : Feed α → Feed β
  | .finished => .finished
  | .item entry rest => .item (entry.map transform) fun now => (rest now).map transform
  | .waiting deadline resume => .waiting deadline fun now => (resume now).map transform
  | .opening name next => .opening name fun answer => (next answer).map transform
  | .silent => .silent

end Feed

end StreamQuery
