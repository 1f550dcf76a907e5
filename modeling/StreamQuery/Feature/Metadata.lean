import StreamQuery.Feature.Registry
import StreamQuery.Settings.Basic
import StreamQuery.Time.ZoneRules
namespace StreamQuery

/-! What a statement is compiled with: its settings, the zones that are known, and features of its
own in front of the ones that every query has. -/

structure Metadata where
  /-- Features of one statement alone, which the selects inside of it do not see. -/
  statementFeatures : Registry
  /-- Features of the whole query. -/
  queryFeatures : Registry
  settings : Settings
  zones : Zones

namespace Metadata

def ofSettings (settings : Settings) (zones : Zones := .common) : Metadata :=
  ⟨.empty, .empty, settings, zones⟩

def withFeature (metadata : Metadata) (id : FeatureId) (feature : Feature) : Metadata :=
  { metadata with queryFeatures := metadata.queryFeatures.insert id feature }

def withStatementFeature (metadata : Metadata) (id : FeatureId) (feature : Feature) : Metadata :=
  { metadata with statementFeatures := metadata.statementFeatures.insert id feature }

def nested (metadata : Metadata) : Metadata :=
  { metadata with statementFeatures := .empty }

def find? (metadata : Metadata) (id : FeatureId) : Option Feature :=
  ((metadata.statementFeatures.find? id).or (metadata.queryFeatures.find? id)).or
    (Registry.defaults.find? id)

def valueFeature? (metadata : Metadata) (name : String) : Option ValueFeature :=
  match metadata.find? (.of .valueMap name) with
  | some (.valueMap feature) => some feature
  | _ => none

def filterFeature? (metadata : Metadata) (name : String) : Option FilterFeature :=
  match metadata.find? (.of .filter name) with
  | some (.filter feature) => some feature
  | _ => none

def aggregateFeature? (metadata : Metadata) (name : String) : Option AggregateFeature :=
  match metadata.find? (.of .aggregate name) with
  | some (.aggregate feature) => some feature
  | _ => none

def groupFeature? (metadata : Metadata) (name : String) : Option GroupFeature :=
  match metadata.find? (.of .group name) with
  | some (.group feature) => some feature
  | _ => none

def joinFeature? (metadata : Metadata) (kind : JoinKind) : Option JoinFeature :=
  match metadata.find? (.of .join kind.name) with
  | some (.join feature) => some feature
  | _ => none

def castFeature? (metadata : Metadata) (name : String) : Option CastFeature :=
  match metadata.find? (.of .cast name) with
  | some (.cast feature) => some feature
  | _ => none

def missing (category : FeatureCategory) (name expression : String) : QueryError :=
  .unsupportedFeature (FeatureId.of category name).text expression

end Metadata

end StreamQuery
