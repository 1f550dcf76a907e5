import StreamQuery.Plan.Source
import StreamQuery.Proofs.Stream.Beginnings
namespace StreamQuery

/-! What comes of a source that may go on for ever. A feed does not, so such a source is told by its
deliveries up to any number, with nothing after them. -/

inductive Supply where
  | script (script : Script)
  | endless (delivery : Nat → Delivery)

/-- In every world that answers with the script under this name, the run shows these items and
ends. It begins now, unless it is free to begin at another instant. -/
def Script.Shows (free : Prop) (now : Nat) (script : Script) (name : String)
    (opening : Opening (Stream α)) (items : List (Except QueryError α)) : Prop :=
  ∀ world : World, InTime free now world.now → (world.request name).1 = .ok script →
    (Stream.run none opening world).items.map (·.2) = items ∧
      (Stream.run none opening world).ended.isSome

namespace Supply

def first (count : Nat) : Supply → List Delivery
  | .script whole => whole.deliveries.take count
  | .endless delivery => (List.range count).map delivery

/-- The first so many deliveries bring the same, where they are free sooner or later. -/
def AgreesFor (free : Prop) (supply other : Supply) (count : Nat) : Prop :=
  List.Forall₂ (Delivery.Alike free) (supply.first count) (other.first count)

theorem AgreesFor.refl (free : Prop) (supply : Supply) (count : Nat) :
    AgreesFor free supply supply count :=
  List.forall₂_same.mpr fun delivery _ => ⟨rfl, .refl free delivery.after⟩

/-- The run shows these items and ends. If the source does not end, no more than its first
deliveries have to be there for it. -/
def Shows (free : Prop) (now : Nat) (supply : Supply) (name : String)
    (opening : Opening (Stream α)) (items : List (Except QueryError α)) : Prop :=
  match supply with
  | .script whole => whole.Shows free now name opening items
  | .endless _ => ∃ known, ∀ count, known ≤ count →
      Script.Shows free now ⟨supply.first count, false⟩ name opening items

theorem first_prefix (delivery : Nat → Delivery) {count more : Nat} (within : count ≤ more) :
    first count (.endless delivery) <+: first more (.endless delivery) := by
  have same : first count (.endless delivery) = (first more (.endless delivery)).take count := by
    simp only [first, ← List.map_take, List.take_range, Nat.min_eq_left within]
  rw [same]
  exact List.take_prefix _ _

end Supply

namespace Stream

/-- Every beginning of the records makes a beginning of the output. -/
def KeepsBeginnings (free : Prop) (stage : Stream α → Stream β) : Prop :=
  ∀ ⦃records others : Stream α⦄,
    (∀ now later, InTime free now later → (records now).Begins free (others later)) →
    ∀ now later, InTime free now later → (stage records now).Begins free (stage others later)

variable {free : Prop} {stage : Stream Value → Stream α} {name : String} {world : World}
  {deliveries front : List Delivery}

theorem KeepsBeginnings.script_shows (keeps : KeepsBeginnings free stage)
    (answered : (world.request name).1 = .ok ⟨deliveries, false⟩)
    (ends : (run none ((Source.request name).map stage) world).ended.isSome) {script : Script}
    (alike : List.Forall₂ (Delivery.Alike free) deliveries front)
    (within : front <+: script.deliveries) :
    script.Shows free world.now name ((Source.request name).map stage)
      ((run none ((Source.request name).map stage) world).items.map (·.2)) := by
  intro other inTime answer
  have run_request (world : World) : run none ((Source.request name).map stage) world =
      Feed.run none (stage (Source.ofAnswer (world.request name).1) (world.request name).2.now)
        (world.request name).2 := rfl
  rw [run_request, answered] at ends
  rw [run_request, run_request, answered, answer]
  have begins := keeps (fun now later => Feed.begins_ofDeliveries alike within script.ends)
  exact (begins world.now other.now inTime).run inTime ends

theorem KeepsBeginnings.shows (keeps : KeepsBeginnings free stage) {supply other : Supply}
    {count : Nat} (agrees : supply.AgreesFor free other count)
    (answered : (world.request name).1 = .ok ⟨supply.first count, false⟩)
    (ends : (run none ((Source.request name).map stage) world).ended.isSome) :
    other.Shows free world.now name ((Source.request name).map stage)
      ((run none ((Source.request name).map stage) world).items.map (·.2)) := by
  cases other with
  | script whole => exact keeps.script_shows answered ends agrees (List.take_prefix _ _)
  | endless delivery =>
      exact ⟨count, fun more known =>
        keeps.script_shows answered ends agrees (Supply.first_prefix delivery known)⟩

end Stream

end StreamQuery
