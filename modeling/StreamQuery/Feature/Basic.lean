import StreamQuery.Aggregate.Accumulator
import StreamQuery.Function.Scalar
import StreamQuery.Text.Case
namespace StreamQuery

/-! Statements name what they use: functions, tests, aggregates, windows, joins, and targets of
casts. Each of these is a feature of one of six categories. -/

inductive FeatureCategory where
  | valueMap
  | filter
  | aggregate
  | group
  | join
  | cast
deriving DecidableEq, Repr

def FeatureCategory.text : FeatureCategory → String
  | .valueMap => "value-map"
  | .filter => "filter"
  | .aggregate => "agg"
  | .group => "group"
  | .join => "join"
  | .cast => "cast"

/-- Features are named in small letters; `FeatureId.of` sees to it. -/
structure FeatureId where
  category : FeatureCategory
  name : String
deriving DecidableEq, Repr

namespace FeatureId

def of (category : FeatureCategory) (name : String) : FeatureId :=
  ⟨category, Text.lower name⟩

def text (id : FeatureId) : String :=
  id.category.text ++ ":" ++ id.name

end FeatureId

/-! Features in value position. -/

inductive ValueFeature where
  | property
  | subselect
  | caseWhen
  | cast
  | scalar (function : ScalarFunction)
  | newRecord
  | now
  | formatDate
  /-- The results of aggregate calls, by their positions in the group. -/
  | slots (calls : List Call)
  /-- One value, whatever the arguments. -/
  | constant (value : Value)
  /-- One value, once the arguments have been evaluated. -/
  | constantFunction (arity : Arity) (value : Value)

/-! Tests. -/

inductive Comparison where
  | equal
  | different
  | less
  | lessOrEqual
  | greater
  | greaterOrEqual
deriving DecidableEq, Repr

namespace Comparison

def accepts : Comparison → Ordering → Bool
  | .equal, order => order == .eq
  | .different, order => order != .eq
  | .less, order => order == .lt
  | .lessOrEqual, order => order != .gt
  | .greater, order => order == .gt
  | .greaterOrEqual, order => order != .lt

/-- No comparison holds between values that do not compare, as with a null. -/
def holds (comparison : Comparison) (left right : Value) : Bool :=
  match left.compare? right with
  | some order => comparison.accepts order
  | none => false

end Comparison

inductive FilterFeature where
  | compare (comparison : Comparison)
  | like
  | between
  | inList
  | isNull
  | isBoolean
  | constant (holds : Bool)

/-! Aggregates. -/

inductive AggregateFeature where
  | count
  /-- An aggregate of one operand, and its own name. -/
  | single (name : String) (aggregation : Aggregation)

/-! Windows, joins and targets of casts. -/

inductive GroupFeature where
  | interval
  | window

inductive JoinFeature where
  | nestedLoop (kind : JoinKind)

inductive CastFeature where
  | type (target : DataType)
  | constant (value : Value)

def CastFeature.apply : CastFeature → Value → Except QueryError Value
  | .type target, value => value.castTo target
  | .constant value, _ => .ok value

inductive Feature where
  | valueMap (feature : ValueFeature)
  | filter (feature : FilterFeature)
  | aggregate (feature : AggregateFeature)
  | group (feature : GroupFeature)
  | join (feature : JoinFeature)
  | cast (feature : CastFeature)

def Feature.category : Feature → FeatureCategory
  | .valueMap _ => .valueMap
  | .filter _ => .filter
  | .aggregate _ => .aggregate
  | .group _ => .group
  | .join _ => .join
  | .cast _ => .cast

end StreamQuery
