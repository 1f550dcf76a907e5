import StreamQuery.Proofs.Plan.Timelessness
import StreamQuery.Proofs.Window.SameGroups
namespace StreamQuery

/-! The stages behind the filter, over feeds in place of streams. The first request tells when the
time of windows begins; from then on the stages go by what the feed does. -/

namespace Pipeline

variable {answers : String → Except QueryError Script} {free : Prop} {pipeline : Pipeline}
  {context : Context} {now later : Nat}

/-- The rows for what the feed brings, where the time of windows began at `started`. -/
def shapedFrom (pipeline : Pipeline) (context : Context) (started : Nat) (feed : Feed Value)
    (now : Nat) : Feed Shaped :=
  match pipeline.grouping with
  | none =>
      feed.process context.settings.errorPolicy
        (fun row => pipeline.shape (context.withRow row)) now
  | some grouping =>
      ((feed.turns grouping context started .start now).groupRows grouping now).process
        context.settings.errorPolicy
        (fun group => pipeline.shape (context.withGroup group.sample group.aggregates)) now

def distinctFrom (pipeline : Pipeline) (rows : Feed Shaped) (now : Nat) : Feed Shaped :=
  if pipeline.distinct then rows.distinct [] now else rows

def sortedFrom (pipeline : Pipeline) (rows : Feed Shaped) (now : Nat) : Feed Shaped :=
  if pipeline.descending.isEmpty then rows else rows.sort pipeline.descending now

def limitedFrom (pipeline : Pipeline) (rows : Feed Shaped) (now : Nat) : Feed Value :=
  match pipeline.limit with
  | none => rows.map Shaped.row
  | some ⟨offset, none⟩ => (rows.map Shaped.row).skip offset now
  | some ⟨_, some 0⟩ => .finished
  | some ⟨offset, some (count + 1)⟩ => ((rows.map Shaped.row).skip offset now).take (count + 1)

def stagesFrom (pipeline : Pipeline) (context : Context) (started : Nat) (feed : Feed Value)
    (now : Nat) : Feed Value :=
  pipeline.limitedFrom (pipeline.sortedFrom (pipeline.distinctFrom
    (pipeline.shapedFrom context started feed now) now) now) now

theorem stages_eq (pipeline : Pipeline) (context : Context) (records : Stream Value) (now : Nat) :
    pipeline.stages context records now =
      pipeline.stagesFrom context now (pipeline.filtered context records now) now := by
  have shaped (records : Stream Value) : pipeline.shaped context records now =
      pipeline.shapedFrom context now (records now) now := by
    simp only [Pipeline.shaped, shapedFrom]
    cases pipeline.grouping <;> rfl
  have distinct (rows : Stream Shaped) :
      pipeline.distinctRows rows now = pipeline.distinctFrom (rows now) now := by
    simp only [distinctRows, distinctFrom]
    split <;> rfl
  have sorted (rows : Stream Shaped) :
      pipeline.sorted rows now = pipeline.sortedFrom (rows now) now := by
    simp only [Pipeline.sorted, sortedFrom]
    split <;> rfl
  have limited (rows : Stream Shaped) :
      pipeline.limited rows now = pipeline.limitedFrom (rows now) now := by
    simp only [Pipeline.limited, limitedFrom]
    rcases pipeline.limit with _ | ⟨offset, _ | _ | count⟩ <;> rfl
  rw [stages, limited, sorted, distinct, shaped]
  rfl

/-- What the stages make of records does not go by the clock. -/
def Clockless (pipeline : Pipeline) : Prop :=
  ∀ context clock, pipeline.stages (context.withClock clock) = pipeline.stages context

theorem Clockless.stagesFrom (clockless : pipeline.Clockless) (unfiltered : pipeline.filter = none)
    (context : Context) (clock : WallClock) (feed : Feed Value) (now : Nat) :
    pipeline.stagesFrom (context.withClock clock) now feed now =
      pipeline.stagesFrom context now feed now := by
  have stages (context : Context) : pipeline.stages context (fun _ => feed) now =
      pipeline.stagesFrom context now feed now := by
    rw [stages_eq, filtered, unfiltered]
  rw [← stages, clockless, stages]

/-! What happens before the first record shows in no stage. -/

theorem leads_shapedFrom {feed other : Feed Value} {world after : World}
    (leads : feed.Leads world other after) (started : Nat) :
    (pipeline.shapedFrom context started feed world.now).Leads world
      (pipeline.shapedFrom context started other after.now) after := by
  simp only [shapedFrom]
  split
  · exact leads.process _ _
  · exact (Grouping.leads_groupRows (Grouping.leads_turns leads started)).process _ _

theorem run_stagesFrom {feed other : Feed Value} {world after : World}
    (leads : feed.Leads world other after) (started : Nat) (wanted : Option Nat) :
    (Feed.run wanted (pipeline.stagesFrom context started feed world.now) world).items =
      (Feed.run wanted (pipeline.stagesFrom context started other after.now) after).items := by
  have distinct : (pipeline.distinctFrom (pipeline.shapedFrom context started feed world.now)
      world.now).Leads world
      (pipeline.distinctFrom (pipeline.shapedFrom context started other after.now) after.now)
      after := by
    simp only [distinctFrom]
    split
    · exact (leads_shapedFrom leads started).distinct []
    · exact leads_shapedFrom leads started
  have sorted : (pipeline.sortedFrom (pipeline.distinctFrom
      (pipeline.shapedFrom context started feed world.now) world.now) world.now).Leads world
      (pipeline.sortedFrom (pipeline.distinctFrom
        (pipeline.shapedFrom context started other after.now) after.now) after.now) after := by
    simp only [sortedFrom]
    split
    · exact distinct
    · exact distinct.sort _
  simp only [stagesFrom, limitedFrom]
  split
  · rw [(sorted.map _).run]
  · rw [((sorted.map _).skip _).run]
  · rfl
  · rw [(((sorted.map _).skip _).take _).run]

/-! Feeds with the same items. -/

section
variable (respects : ∀ delay, pipeline.Respects (.ofDelay delay))
include respects

theorem shape_timeless (context : Context) (stands : free → context.wallClock.StandsStill) :
    (pipeline.shape context).Timeless free := fun delay allowed =>
  (respects delay).shape
    ((Correspondence.ofDelay delay).alike _ context (Correspondence.clocks_ofDelay stands allowed))

/-- Feeds that are free may come to the stages at different instants. Then nothing goes by time, and
what the expressions read is a clock that stands still. -/
theorem matches_stagesFrom (stands : free → context.wallClock.StandsStill)
    (windows : free → ∀ grouping ∈ pipeline.grouping, grouping.Untimed) {feed other : Feed Value}
    (pair : Feed.Matches answers free Eq feed now other later) (inTime : InTime free now later)
    (started : Nat) :
    Feed.Matches answers free Eq (pipeline.stagesFrom context started feed now) now
      (pipeline.stagesFrom context started other later) later := by
  have shaped : Feed.Matches answers free Eq (pipeline.shapedFrom context started feed now) now
      (pipeline.shapedFrom context started other later) later := by
    simp only [shapedFrom]
    split
    · exact pair.process (fun row => shape_timeless respects (context.withRow row) stands) inTime
    · next grouping found =>
        have contributions (row : Value) :
            (grouping.contribution (context.withRow row)).Timeless free := fun delay allowed =>
          ((respects delay).grouping grouping found).contribution
            ((Correspondence.ofDelay delay).alike false (context.withRow row)
              (Correspondence.clocks_ofDelay stands allowed))
        have turns := Grouping.matches_turns (fun isFree => windows isFree grouping found)
          contributions pair inTime (.refl free started) .start
        have shapes (group : GroupRow) :
            (pipeline.shape (context.withGroup group.sample group.aggregates)).Timeless free :=
          shape_timeless respects _ stands
        exact (Grouping.matches_groupRows turns inTime).process shapes inTime
  have distinct : Feed.Matches answers free Eq
      (pipeline.distinctFrom (pipeline.shapedFrom context started feed now) now) now
      (pipeline.distinctFrom (pipeline.shapedFrom context started other later) later) later := by
    simp only [distinctFrom]
    split
    · exact shaped.distinct inTime []
    · exact shaped
  have sorted : Feed.Matches answers free Eq
      (pipeline.sortedFrom (pipeline.distinctFrom
        (pipeline.shapedFrom context started feed now) now) now) now
      (pipeline.sortedFrom (pipeline.distinctFrom
        (pipeline.shapedFrom context started other later) later) later) later := by
    simp only [sortedFrom]
    split
    · exact distinct
    · exact distinct.sort inTime _
  simp only [stagesFrom, limitedFrom]
  split
  · exact sorted.map _
  · exact (sorted.map _).skip inTime _
  · exact .finished
  · exact ((sorted.map _).skip inTime _).take _

end

end Pipeline

end StreamQuery
