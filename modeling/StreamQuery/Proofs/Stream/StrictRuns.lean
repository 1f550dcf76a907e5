import StreamQuery.Proofs.Stream.StrictFeeds
namespace StreamQuery

/-! The run of a stricter feed, next to the run of the other in the same world. -/

namespace Run

def successes (run : Run α) : List (Nat × α) :=
  run.items.filterMap fun (now, item) => item.toOption.map fun value => (now, value)

def Clean (run : Run α) : Prop :=
  ∀ entry ∈ run.items, ∃ value, entry.2 = .ok value

/-- The run shows the same rows as the other until it fails, and if it does not fail, both are the
same run. -/
def Precedes (run other : Run α) : Prop :=
  run.successes <+: other.successes ∧ (run.Clean → run = other)

theorem precedes_refl (run : Run α) : run.Precedes run :=
  ⟨List.prefix_rfl, fun _ => rfl⟩

theorem Precedes.cons {run other : Run α} (precedes : run.Precedes other) (now : Nat)
    (item : Except QueryError α) : (run.cons now item).Precedes (other.cons now item) := by
  constructor
  · cases item with
    | error error => exact precedes.1
    | ok value => exact (List.prefix_cons_inj (now, value)).mpr precedes.1
  · intro clean
    rw [precedes.2 (List.forall_mem_cons.mp clean).2]

theorem precedes_of_error {run : Run α} (other : Run α) (only : run.items = [(now, .error error)]) :
    run.Precedes other := by
  constructor
  · have none : run.successes = [] := by
      rw [successes, only]
      rfl
    rw [none]
    exact List.nil_prefix
  · intro clean
    rcases clean (now, .error error) (only ▸ List.mem_cons_self) with ⟨value, same⟩
    cases same

end Run

namespace Feed

theorem Stricter.run {feed other : Feed α} (stricter : feed.Stricter other) (wanted : Option Nat)
    (world : World) : (Feed.run wanted feed world).Precedes (Feed.run wanted other world) := by
  induction stricter generalizing wanted world with
  | finished => exact Run.precedes_refl _
  | item entry _ induction =>
      simp only [Feed.run]
      split
      · exact (induction _ _ world).cons _ entry
      · exact Run.precedes_refl _
      · exact (induction _ none world).cons _ entry
  | @failed rest error other finishes =>
      have only : (Feed.run wanted (.item (.error error) rest) world).items =
          [(world.now, .error error)] := by
        simp only [Feed.run]
        rw [finishes]
        split <;> rfl
      exact Run.precedes_of_error _ only
  | waiting _ induction => exact induction _ wanted _
  | opening _ induction => exact induction _ wanted _
  | silent => exact Run.precedes_refl _

end Feed

theorem Stream.run_precedes {opening other : Opening (Stream α)}
    (related : opening.Related Stream.Stricter other) (wanted : Option Nat) (world : World) :
    (Stream.run wanted opening world).Precedes (Stream.run wanted other world) := by
  induction related generalizing world with
  | done stricter =>
      simp only [Stream.run]
      split
      · exact Run.precedes_refl _
      · exact (stricter world.now).run wanted world
  | opening _ induction => exact induction _ (world.request _).2

end StreamQuery
