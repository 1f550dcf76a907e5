import StreamQuery.Feature.Basic
import StreamQuery.Join.NestedLoop
import StreamQuery.Plan.Basic
namespace StreamQuery

/-! Where the records of a statement come from. -/

structure Source where
  /-- The name that qualifies the columns of the records. -/
  label : String
  rows : (nested : Bool) → Context → Opening (Stream Value)

namespace Source

def ofAnswer : Except QueryError Script → Stream Value
  | .ok script => Feed.ofScript script
  | .error error => Feed.ofItems [.error error]

def request (name : String) : Opening (Stream Value) :=
  .opening name fun answer => .done (ofAnswer answer)

def ofTable (name label : String) : Source :=
  ⟨label, fun _ _ => request name⟩

def ofPlan (plan : Plan) (label : String) : Source :=
  ⟨label, plan.rows⟩

def materialize (source : Source) (nested : Bool) (context : Context) : Evaluation (List Value) :=
  (source.rows nested context).map fun stream now => Feed.collect [] (stream now) now

end Source

structure JoinStep where
  source : Source
  feature : JoinFeature
  condition : Option Predicate

def JoinFeature.join : JoinFeature → JoinInput → Option Predicate → Context → Evaluation (List Value)
  | .nestedLoop kind => NestedLoop.join kind

inductive SourcePlan where
  /-- The record around a nested statement, or the default source. -/
  | implicit
  | single (source : Source)
  | joined (first : Source) (steps : List JoinStep)

namespace SourcePlan

def joinSteps (nested : Bool) (context : Context) :
    List JoinStep → List Value → List String → Evaluation (List Value)
  | [], left, _ => .ok left
  | step :: rest, left, labels =>
      (step.source.materialize nested context).andThen fun right =>
        let input : JoinInput := ⟨left, labels, right, step.source.label⟩
        (step.feature.join input step.condition context).andThen fun joined =>
          joinSteps nested context rest joined (labels ++ [step.source.label])

def joinAll (nested : Bool) (context : Context) (first : Source) (steps : List JoinStep) :
    Evaluation (List Value) :=
  (first.materialize nested context).andThen fun rows =>
    joinSteps nested context steps (qualify first.label rows) [first.label]

def context (context : Context) : SourcePlan → Context
  | .implicit => context
  | .single source => context.withLabel (some source.label)
  | .joined _ _ => context.withLabel none

/-- A single source is opened as soon as its records are asked for, joined ones only when the first
record is. -/
def rows (nested : Bool) (context : Context) : SourcePlan → Opening (Stream Value)
  | .implicit =>
      if nested then .done (Feed.ofItems [.ok context.row])
      else Source.request context.settings.defaultSource
  | .single source => source.rows nested context
  | .joined first steps =>
      .done fun now =>
        Feed.afterTask ((joinAll nested (context.withLabel none) first steps).run now) now
          Feed.ofResult

end SourcePlan

end StreamQuery
