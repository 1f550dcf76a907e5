import StreamQuery.Proofs.Stream.Worlds
import StreamQuery.Stream.Stage
namespace StreamQuery

/-! The first item of a run, and the work and the stages that a value has come through. -/

namespace Opening

theorem now_run (opening : Opening α) (world : World) : (opening.run world).2.now = world.now := by
  induction opening generalizing world with
  | done value => rfl
  | opening name next induction => exact induction _ _

theorem run_map (opening : Opening α) (transform : α → β) (world : World) :
    (opening.map transform).run world =
      (transform (opening.run world).1, (opening.run world).2) := by
  induction opening generalizing world with
  | done value => rfl
  | opening name next induction => exact induction _ _

theorem run_toTask (opening : Opening α) (next : α → Task β) (world : World) :
    (opening.toTask next).run world = (next (opening.run world).1).run (opening.run world).2 := by
  induction opening generalizing world with
  | done value => rfl
  | opening name answer induction => exact induction _ _

end Opening

/-- The first item, or that there is none. A run that is silent before its first item does not
tell. -/
def Run.first? (run : Run α) : Option (Option (Except QueryError α)) :=
  match run.items with
  | (_, item) :: _ => some (some item)
  | [] => run.ended.map fun _ => none

theorem Feed.run_first (feed : Feed α) (world : World) :
    feed.first.run world =
      ((Feed.run (some 1) feed world).first?, (Feed.run (some 1) feed world).world) := by
  induction feed generalizing world with
  | finished => rfl
  | item entry rest => rfl
  | waiting deadline resume induction => exact induction _ _
  | opening name next induction => exact induction _ _
  | silent => rfl

theorem Stream.run_firstOf (opening : Opening (Stream α))
    (transform : Option (Except QueryError α) → Except QueryError β) (world : World) :
    let run := Stream.run (some 1) opening world
    (Evaluation.run (opening.map fun stream now => (stream now).first.map transform)
      world.now).run world = (run.first?.map transform, run.world) := by
  intro run
  rw [Evaluation.run, Opening.toTask_map, Opening.run_toTask, Task.run_map, ← opening.now_run world,
    Feed.run_first]
  rfl

namespace Feed

inductive Brings (value : α) : Feed α → World → Prop
  | here : Brings value (.item (.ok value) rest) world
  | later : Brings value (rest world.now) world → Brings value (.item entry rest) world
  | waiting : Brings value (resume (world.advance deadline).now) (world.advance deadline) →
      Brings value (.waiting deadline resume) world
  | opening : Brings value (next (world.request name).1) (world.request name).2 →
      Brings value (.opening name next) world

variable {world : World}

theorem brings_of_mem_run {feed : Feed α} {wanted : Option Nat} {value : α}
    (shown : (instant, .ok value) ∈ (Feed.run wanted feed world).items) :
    feed.Brings value world := by
  induction feed generalizing wanted world with
  | finished => cases shown
  | item entry rest induction =>
      have either (wanted : Option Nat) (shown : (instant, .ok value) ∈
          (world.now, entry) :: (Feed.run wanted (rest world.now) world).items) :
          (Feed.item entry rest).Brings value world := by
        rcases List.mem_cons.mp shown with same | later
        · cases same
          exact .here
        · exact .later (induction _ later)
      simp only [Feed.run] at shown
      split at shown
      · exact either _ shown
      · cases List.mem_singleton.mp shown
        exact .here
      · exact either _ shown
  | waiting deadline resume induction => exact .waiting (induction _ shown)
  | opening name next induction => exact .opening (induction _ shown)
  | silent => cases shown

/-! What has come through a stage has been made by it, or has come to it before. -/

theorem Brings.of_afterTask {task : Task α} {next : α → Stream β} {value : β}
    (brings : (afterTask task world.now next).Brings value world) :
    ∃ result later, task.run world = (some result, later) ∧
      (next result later.now).Brings value later := by
  induction task generalizing world with
  | done result => exact ⟨result, world, rfl, brings⟩
  | waiting deadline resume induction =>
      cases brings with
      | waiting brings => exact induction _ brings
  | opening name answer induction =>
      cases brings with
      | opening brings => exact @induction _ (world.request name).2 brings
  | stuck => cases brings

theorem Brings.of_process {policy : ErrorPolicy} {step : α → Evaluation (Option β)}
    {feed : Feed α} {output : β}
    (brings : (feed.process policy step world.now).Brings output world) :
    ∃ value before after, (step value).ComesTo before (.ok (some output)) after := by
  induction feed generalizing world with
  | finished => cases brings
  | item entry rest induction =>
      cases entry with
      | error error =>
          cases brings with
          | later brings => cases brings
      | ok value =>
          simp only [process] at brings
          rcases brings.of_afterTask with ⟨result, between, comes, brings⟩
          rcases result with error | _ | made
          · dsimp only at brings
            split at brings
            · exact induction _ brings
            · cases brings with
              | later brings => cases brings
          · exact induction _ brings
          · cases brings with
            | here => exact ⟨value, world, between, comes⟩
            | later brings => exact induction _ brings
  | waiting deadline resume induction =>
      cases brings with
      | waiting brings => exact induction _ brings
  | opening name next induction =>
      cases brings with
      | opening brings => exact @induction _ (world.request name).2 brings
  | silent => cases brings

theorem Brings.of_map {transform : α → β} {feed : Feed α} {output : β}
    (brings : (feed.map transform).Brings output world) :
    ∃ value, feed.Brings value world ∧ transform value = output := by
  induction feed generalizing world with
  | finished => cases brings
  | item entry rest induction =>
      generalize changed : entry.map transform = first at brings
      simp only [Feed.map, changed] at brings
      cases brings with
      | here =>
          rcases entry with error | value
          · cases changed
          · exact ⟨value, .here, Except.ok.inj changed⟩
      | later brings =>
          rcases induction _ brings with ⟨value, brings, same⟩
          exact ⟨value, .later brings, same⟩
  | waiting deadline resume induction =>
      cases brings with
      | waiting brings =>
          rcases induction _ brings with ⟨value, brings, same⟩
          exact ⟨value, .waiting brings, same⟩
  | opening name next induction =>
      cases brings with
      | opening brings =>
          rcases induction _ brings with ⟨value, brings, same⟩
          exact ⟨value, .opening brings, same⟩
  | silent => cases brings

theorem Brings.of_distinct {feed : Feed Shaped} {seen : List Value} {row : Shaped}
    (brings : (feed.distinct seen world.now).Brings row world) : feed.Brings row world := by
  induction feed generalizing seen world with
  | finished => cases brings
  | item entry rest induction =>
      cases entry with
      | error error =>
          cases brings with
          | later brings => exact .later (induction _ brings)
      | ok shaped =>
          simp only [Feed.distinct] at brings
          split at brings
          · exact .later (induction _ brings)
          · cases brings with
            | here => exact .here
            | later brings => exact .later (induction _ brings)
  | waiting deadline resume induction =>
      cases brings with
      | waiting brings => exact .waiting (induction _ brings)
  | opening name next induction =>
      cases brings with
      | opening brings => exact .opening (@induction _ (world.request name).2 _ brings)
  | silent => cases brings

theorem Brings.of_skip {feed : Feed α} {offset : Nat} {value : α}
    (brings : (feed.skip offset world.now).Brings value world) : feed.Brings value world := by
  induction feed generalizing offset world with
  | finished => cases offset <;> cases brings
  | item entry rest induction =>
      cases entry with
      | error error =>
          cases offset <;> cases brings with
          | later brings => exact .later (induction _ brings)
      | ok first =>
          cases offset with
          | zero =>
              cases brings with
              | here => exact .here
              | later brings => exact .later (induction _ brings)
          | succ offset => exact .later (induction _ brings)
  | waiting deadline resume induction =>
      cases offset <;> cases brings with
      | waiting brings => exact .waiting (induction _ brings)
  | opening name next induction =>
      cases offset <;> cases brings with
      | opening brings => exact .opening (@induction _ (world.request name).2 _ brings)
  | silent => cases offset <;> cases brings

theorem Brings.of_take {feed : Feed α} {count : Nat} {value : α}
    (brings : (feed.take count).Brings value world) : feed.Brings value world := by
  induction feed generalizing count world with
  | finished => cases brings
  | item entry rest induction =>
      cases brings with
      | here => exact .here
      | later brings =>
          dsimp only at brings
          split at brings
          · cases brings
          · exact .later (induction _ brings)
  | waiting deadline resume induction =>
      cases brings with
      | waiting brings => exact .waiting (induction _ brings)
  | opening name next induction =>
      cases brings with
      | opening brings => exact .opening (induction _ brings)
  | silent => cases brings

theorem brings_of_collect {feed : Feed α} {collected values : List α} {later : World}
    (comes : (feed.collect collected world.now).run world = (some (.ok values), later)) :
    ∀ value ∈ values, value ∈ collected ∨ feed.Brings value world := by
  induction feed generalizing collected world with
  | finished =>
      cases comes
      exact fun value member => .inl (List.mem_reverse.mp member)
  | item entry rest induction =>
      cases entry with
      | error error => cases comes
      | ok first =>
          intro value member
          rcases induction _ comes value member with collected | brings
          · rcases List.mem_cons.mp collected with rfl | collected
            · exact .inr .here
            · exact .inl collected
          · exact .inr (.later brings)
  | waiting deadline resume induction =>
      exact fun value member => (induction _ comes value member).imp_right .waiting
  | opening name next induction =>
      exact fun value member =>
        (@induction _ (world.request name).2 _ comes value member).imp_right .opening
  | silent => cases comes

theorem mem_of_brings_ofItems {items : List (Except QueryError α)} {value : α}
    (brings : (ofItems items world.now).Brings value world) : .ok value ∈ items := by
  induction items with
  | nil => cases brings
  | cons item items induction =>
      cases brings with
      | here => exact List.mem_cons_self
      | later brings => exact List.mem_cons_of_mem item (induction brings)

theorem Brings.of_sort {feed : Feed Shaped} {descending : List Bool} {row : Shaped}
    (brings : (feed.sort descending world.now).Brings row world) : feed.Brings row world := by
  rcases brings.of_afterTask with ⟨result, later, comes, brings⟩
  cases result with
  | error error => cases List.mem_singleton.mp (mem_of_brings_ofItems brings)
  | ok rows =>
      rcases List.mem_map.mp (mem_of_brings_ofItems brings) with ⟨_, member, same⟩
      cases same
      rcases brings_of_collect comes row (List.mem_mergeSort.mp member) with nothing | brings
      · cases nothing
      · exact brings

end Feed

theorem Limit.brings_of_apply {limit : Limit} {stream : Stream α} {world : World} {value : α}
    (brings : (limit.apply stream world.now).Brings value world) :
    (stream world.now).Brings value world := by
  simp only [apply] at brings
  split at brings
  · exact brings.of_skip
  · cases brings
  · exact brings.of_take.of_skip

end StreamQuery
