import StreamQuery.Feature.Basic
namespace StreamQuery

/-! A registry holds features by their names, each name once. -/

structure Registry where
  entries : List (FeatureId × Feature)

namespace Registry

def empty : Registry := ⟨[]⟩

def find? (registry : Registry) (id : FeatureId) : Option Feature :=
  (registry.entries.find? fun entry => entry.1 == id).map (·.2)

def contains (registry : Registry) (id : FeatureId) : Bool :=
  (registry.find? id).isSome

def size (registry : Registry) : Nat :=
  registry.entries.length

def insertEntry (id : FeatureId) (feature : Feature) :
    List (FeatureId × Feature) → List (FeatureId × Feature)
  | [] => [(id, feature)]
  | entry :: rest =>
      if entry.1 = id then (id, feature) :: rest else entry :: insertEntry id feature rest

def insert (registry : Registry) (id : FeatureId) (feature : Feature) : Registry :=
  ⟨insertEntry id feature registry.entries⟩

theorem find?_insert (registry : Registry) (id : FeatureId) (feature : Feature)
    (wanted : FeatureId) :
    (registry.insert id feature).find? wanted =
      if id = wanted then some feature else registry.find? wanted := by
  obtain ⟨entries⟩ := registry
  simp only [find?, insert]
  induction entries with
  | nil =>
      simp only [insertEntry, List.find?_cons, List.find?_nil]
      by_cases same : id = wanted
      · simp only [same, beq_self_eq_true, if_true, Option.map_some]
      · simp only [beq_eq_false_iff_ne.2 same, same, if_false]
  | cons entry rest induction =>
      simp only [insertEntry]
      by_cases present : entry.1 = id
      · subst present
        simp only [if_true, List.find?_cons]
        by_cases same : entry.1 = wanted
        · simp only [same, beq_self_eq_true, if_true, Option.map_some]
        · simp only [beq_eq_false_iff_ne.2 same, same, if_false]
      · rw [if_neg present]
        by_cases same : entry.1 = wanted
        · subst same
          simp only [List.find?_cons, beq_self_eq_true, Option.map_some,
            if_neg (Ne.symm present)]
        · simp only [List.find?_cons, beq_eq_false_iff_ne.2 same, induction]

def require (registry : Registry) (id : FeatureId) (expression : String) :
    Except QueryError Feature :=
  match registry.find? id with
  | some feature => .ok feature
  | none => .error (.unsupportedFeature id.text expression)

end Registry

/-! The features that every query has. -/

namespace Registry

def scalarFunctions : List (String × ScalarFunction) :=
  [("+", .arithmetic .add), ("math.plus", .arithmetic .add),
   ("-", .arithmetic .subtract), ("math.sub", .arithmetic .subtract),
   ("*", .arithmetic .multiply), ("math.mul", .arithmetic .multiply),
   ("/", .arithmetic .divide), ("math.divi", .arithmetic .divide),
   ("%", .arithmetic .remainder), ("math.mod", .arithmetic .remainder),
   ("math.max", .greatest), ("math.min", .least),
   ("math.floor", .rounded .floor), ("math.ceil", .rounded .ceiling),
   ("math.round", .rounded .halfAway), ("math.abs", .absolute), ("math.log", .logarithm),
   ("math.sqrt", .squareRoot), ("math.exp", .exponential), ("math.pow", .power),
   ("^", .bitwise .exclusiveOr), ("bit_mutex", .bitwise .exclusiveOr),
   ("&", .bitwise .and), ("bit_and", .bitwise .and),
   ("|", .bitwise .or), ("bit_or", .bitwise .or),
   ("<<", .bitwise .shiftLeft), ("bit_left_shift", .bitwise .shiftLeft),
   (">>", .bitwise .shiftRight), ("bit_right_shift", .bitwise .shiftRight),
   ("bit_unsigned_shift", .bitwise .shiftRightUnsigned), ("bit_not", .bitNot),
   ("bit_count", .bitCount), ("||", .joined), ("concat", .concatenated), ("upper", .upper),
   ("lower", .lower), ("trim", .trimmed), ("length", .length), ("substr", .substring),
   ("new_array", .newList), ("row_to_array", .items), ("coalesce", .coalesce)]

def valueFeatures : List (String × ValueFeature) :=
  [("property", .property), ("select", .subselect), ("case-when", .caseWhen), ("cast", .cast),
   ("new_map", .newRecord), ("now", .now), ("date_format", .formatDate)]

def comparisons : List (String × Comparison) :=
  [("=", .equal), ("eq", .equal), ("<>", .different), ("!=", .different), ("neq", .different),
   ("<", .less), ("lt", .less), ("<=", .lessOrEqual), ("lte", .lessOrEqual),
   (">", .greater), ("gt", .greater), (">=", .greaterOrEqual), ("gte", .greaterOrEqual)]

def filterFeatures : List (String × FilterFeature) :=
  [("like", .like), ("between", .between), ("in", .inList), ("is_null", .isNull),
   ("is_boolean", .isBoolean)]

def aggregations : List (String × Aggregation) :=
  [("sum", .sum), ("avg", .average), ("max", .maximum), ("min", .minimum),
   ("stddev", .deviation), ("geomean", .geometricMean)]

def groupFeatures : List (String × GroupFeature) :=
  [("interval", .interval), ("_window", .window)]

def joinKinds : List JoinKind :=
  [.inner, .left, .right, .cross]

def castTargets : List (String × DataType) :=
  [("string", .string), ("varchar", .string), ("boolean", .boolean), ("bool", .boolean),
   ("int", .int32), ("integer", .int32), ("long", .int64), ("bigint", .int64),
   ("double", .double), ("float", .single), ("decimal", .decimal), ("date", .dateTime),
   ("datetime", .dateTime), ("timestamp", .dateTime)]

def defaults : Registry :=
  let valueMaps :=
    valueFeatures ++ scalarFunctions.map fun (name, function) => (name, .scalar function)
  let filters :=
    comparisons.map (fun (name, comparison) => (name, .compare comparison)) ++ filterFeatures
  let aggregates : List (String × AggregateFeature) :=
    ("count", .count) ::
      aggregations.map fun (name, aggregation) => (name, .single name aggregation)
  ⟨valueMaps.map (fun (name, feature) => (⟨.valueMap, name⟩, .valueMap feature))
    ++ filters.map (fun (name, feature) => (⟨.filter, name⟩, .filter feature))
    ++ aggregates.map (fun (name, feature) => (⟨.aggregate, name⟩, .aggregate feature))
    ++ groupFeatures.map (fun (name, feature) => (⟨.group, name⟩, .group feature))
    ++ joinKinds.map (fun kind => (⟨.join, kind.name⟩, .join (.nestedLoop kind)))
    ++ castTargets.map (fun (name, target) => (⟨.cast, name⟩, .cast (.type target)))⟩

end Registry

end StreamQuery
