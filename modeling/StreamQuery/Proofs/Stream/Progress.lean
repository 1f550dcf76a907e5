import StreamQuery.Proofs.Stream.Composition
import StreamQuery.Proofs.Stream.Worlds
import StreamQuery.Stream.Stage
namespace StreamQuery

/-! What happens in a world before the first item of a feed. The stages that the feed goes through
let it pass: they do nothing themselves before they have an item. -/

namespace Feed

inductive Leads : Feed α → World → Feed α → World → Prop
  | here : Leads feed world feed world
  | waiting : Leads (resume (world.advance deadline).now) (world.advance deadline) feed later →
      Leads (.waiting deadline resume) world feed later
  | opening : Leads (next (world.request name).1) (world.request name).2 feed later →
      Leads (.opening name next) world feed later

variable {world later : World}

theorem Leads.run {feed other : Feed α} (leads : feed.Leads world other later)
    (wanted : Option Nat) : Feed.run wanted feed world = Feed.run wanted other later := by
  induction leads with
  | here => rfl
  | waiting _ induction => exact induction
  | opening _ induction => exact induction

theorem leads_afterTask {task : Task α} {value : α} (comes : task.run world = (some value, later))
    (next : α → Stream β) :
    (afterTask task world.now next).Leads world (next value later.now) later := by
  induction task generalizing world with
  | done value =>
      cases comes
      exact .here
  | waiting deadline resume induction => exact .waiting (induction _ comes)
  | opening name answer induction => exact .opening (induction _ comes)
  | stuck => cases comes

theorem leads_afterTask_stuck {task : Task α} (stuck : task.run world = (none, later))
    (next : α → Stream β) : (afterTask task world.now next).Leads world .silent later := by
  induction task generalizing world with
  | done value => cases stuck
  | waiting deadline resume induction => exact .waiting (induction _ stuck)
  | opening name answer induction => exact .opening (induction _ stuck)
  | stuck =>
      cases stuck
      exact .here

section
variable {evaluation : Evaluation α} {next : α → Evaluation β}
  {following : Except QueryError β → Stream γ}

theorem leads_andThen_ok {value : α} (comes : evaluation.ComesTo world (.ok value) later) :
    (afterTask ((evaluation.andThen next).run world.now) world.now following).Leads world
      (afterTask ((next value).run later.now) later.now following) later := by
  rw [Evaluation.run_andThen, afterTask_bind]
  exact leads_afterTask comes _

theorem leads_andThen_error {error : QueryError}
    (comes : evaluation.ComesTo world (.error error) later) :
    (afterTask ((evaluation.andThen next).run world.now) world.now following).Leads world
      (following (.error error) later.now) later := by
  rw [Evaluation.run_andThen, afterTask_bind]
  exact leads_afterTask comes _

theorem leads_andThen_stuck (stuck : (evaluation.run world.now).run world = (none, later)) :
    (afterTask ((evaluation.andThen next).run world.now) world.now following).Leads world
      .silent later := by
  rw [Evaluation.run_andThen, afterTask_bind]
  exact leads_afterTask_stuck stuck _

end

namespace Leads

theorem trans {feed middle other : Feed α} {between : World}
    (first : feed.Leads world middle between) (second : middle.Leads between other later) :
    feed.Leads world other later := by
  induction first with
  | here => exact second
  | waiting _ induction => exact .waiting (induction second)
  | opening _ induction => exact .opening (induction second)

theorem map {feed other : Feed α} (leads : feed.Leads world other later) (transform : α → β) :
    (feed.map transform).Leads world (other.map transform) later := by
  induction leads with
  | here => exact .here
  | waiting _ induction => exact .waiting induction
  | opening _ induction => exact .opening induction

theorem process {feed other : Feed α} (leads : feed.Leads world other later) (policy : ErrorPolicy)
    (step : α → Evaluation (Option β)) :
    (feed.process policy step world.now).Leads world (other.process policy step later.now)
      later := by
  induction leads with
  | here => exact .here
  | waiting _ induction => exact .waiting induction
  | opening _ induction => exact .opening induction

theorem distinct {feed other : Feed Shaped} (leads : feed.Leads world other later)
    (seen : List Value) :
    (feed.distinct seen world.now).Leads world (other.distinct seen later.now) later := by
  induction leads with
  | here => exact .here
  | waiting _ induction => exact .waiting induction
  | opening _ induction => exact .opening induction

theorem sort {feed other : Feed Shaped} (leads : feed.Leads world other later)
    (descending : List Bool) :
    (feed.sort descending world.now).Leads world (other.sort descending later.now) later := by
  induction leads with
  | here => exact .here
  | waiting _ induction => exact .waiting induction
  | opening _ induction => exact .opening induction

theorem skip {feed other : Feed α} (leads : feed.Leads world other later) (offset : Nat) :
    (feed.skip offset world.now).Leads world (other.skip offset later.now) later := by
  induction leads with
  | here => exact .here
  | waiting _ induction => cases offset <;> exact .waiting induction
  | opening _ induction => cases offset <;> exact .opening induction

theorem take {feed other : Feed α} (leads : feed.Leads world other later) (count : Nat) :
    (feed.take count).Leads world (other.take count) later := by
  induction leads with
  | here => exact .here
  | waiting _ induction => exact .waiting induction
  | opening _ induction => exact .opening induction

end Leads

end Feed

end StreamQuery
