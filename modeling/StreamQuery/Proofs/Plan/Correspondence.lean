import StreamQuery.Plan.Pipeline
import StreamQuery.Proofs.Plan.Likeness
namespace StreamQuery

/-! What a statement compiles to puts evaluations and streams together in a fixed set of ways. A
relation that all of them keep holds between what the statement comes to under two settings. -/

namespace Context

def withSettings (context : Context) (change : Settings → Settings) : Context :=
  { context with settings := change context.settings }

variable {left right : Settings → Settings} {clocks : WallClock → WallClock → Prop} {sharing : Prop}
  {context other : Context}

/-- Contexts that differ at most in their settings, the two of which come from the same ones, in
their clocks, which are related, and in the finished aggregates unless these are shared. -/
structure Alike (left right : Settings → Settings) (clocks : WallClock → WallClock → Prop)
    (sharing : Prop) (context other : Context) : Prop where
  row : context.row = other.row
  label : context.label = other.label
  wallClock : clocks context.wallClock other.wallClock
  settings : ∃ base, context.settings = left base ∧ other.settings = right base
  aggregates : sharing → context.aggregates = other.aggregates

namespace Alike

theorem withSettings (context : Context) (same : clocks context.wallClock context.wallClock) :
    Alike left right clocks sharing (context.withSettings left) (context.withSettings right) :=
  ⟨rfl, rfl, same, ⟨context.settings, rfl, rfl⟩, fun _ => rfl⟩

theorem exists_base (alike : Alike left right Eq sharing context other) (shares : sharing) :
    ∃ base : Context, context = base.withSettings left ∧ other = base.withSettings right := by
  rcases alike with ⟨row, label, wallClock, ⟨base, first, second⟩, aggregates⟩
  refine ⟨{ context with settings := base }, ?_, ?_⟩
  · rw [Context.withSettings, ← first]
  · rw [Context.withSettings, ← second, row, label, wallClock, aggregates shares]

theorem mono {weaker : Prop} (alike : Alike left right clocks sharing context other)
    (shares : weaker → sharing) : Alike left right clocks weaker context other :=
  { alike with aggregates := fun holds => alike.aggregates (shares holds) }

theorem withRow (alike : Alike left right clocks sharing context other) (row : Value) :
    Alike left right clocks sharing (context.withRow row) (other.withRow row) :=
  { alike with row := rfl }

theorem withLabel (alike : Alike left right clocks sharing context other) (label : Option String) :
    Alike left right clocks sharing (context.withLabel label) (other.withLabel label) :=
  { alike with label := rfl }

theorem withGroup (alike : Alike left right clocks sharing context other) (sample : Value)
    (aggregates : List Value) :
    Alike left right clocks True (context.withGroup sample aggregates)
      (other.withGroup sample aggregates) :=
  { alike with row := rfl, aggregates := fun _ => rfl }

theorem resolve (alike : Alike left right clocks sharing context other) (reference : ColumnRef) :
    context.resolve reference = other.resolve reference := by
  simp only [Context.resolve, Context.findColumn?, alike.row, alike.label]

end Alike

end Context

/-- A relation of evaluations and of streams, the one side under some settings and the other side
under others, with the ways of putting them together that keep it. -/
structure Correspondence where
  left : Settings → Settings
  right : Settings → Settings
  clocks : WallClock → WallClock → Prop
  /-- Whether the same aggregates are finished on both sides also outside of groups. -/
  sharing : Prop
  evaluations {α : Type} : Evaluation α → Evaluation α → Prop
  streams {α : Type} : Stream α → Stream α → Prop
  openings {α : Type} : Opening (Stream α) → Opening (Stream α) → Prop
  reading {α : Type} {clock other : WallClock} {read : Int64 → Except QueryError α} :
    clocks clock other → (∀ time, FailsAsCast (read time)) →
    evaluations (.reading fun now => read (clock.reading now))
      (.reading fun now => read (other.reading now))
  ok {α : Type} (value : α) : evaluations (.ok value) (.ok value)
  /-- A function that fails as a cast on what it can be given. -/
  thenCheck {α β : Type} {evaluation other : Evaluation α} {next : α → Except QueryError β} :
    evaluations evaluation other →
    (∀ value, evaluation.Gives (fun _ => True) (.ok value) → FailsAsCast (next value)) →
    evaluations (evaluation.thenCheck next) (other.thenCheck next)
  andThen {α β : Type} {evaluation other : Evaluation α} {next following : α → Evaluation β} :
    evaluations evaluation other → (∀ value, evaluations (next value) (following value)) →
    evaluations (evaluation.andThen next) (other.andThen following)
  both {α β : Type} {evaluation other : Evaluation α} {second secondOther : Evaluation β} :
    evaluations evaluation other → evaluations second secondOther →
    evaluations (evaluation.both second) (other.both secondOther)
  defer {α : Type} {evaluation other : Evaluation α} :
    evaluations evaluation other → evaluations evaluation.defer other.defer
  firstValue {opening other : Opening (Stream Value)} (query : Select) : openings opening other →
    evaluations (opening.map fun stream now => (stream now).first.map query.valueOfFirst)
      (other.map fun stream now => (stream now).first.map query.valueOfFirst)
  collect {opening other : Opening (Stream Value)} : openings opening other →
    evaluations (opening.map fun stream now => Feed.collect [] (stream now) now)
      (other.map fun stream now => Feed.collect [] (stream now) now)
  request (name : String) : openings (Source.request name) (Source.request name)
  defaultSource (settings : Settings) :
    (left settings).defaultSource = (right settings).defaultSource
  opened {α : Type} {stream other : Stream α} :
    streams stream other → openings (.done stream) (.done other)
  mapOpened {α β : Type} {opening other : Opening (Stream α)}
    {transform otherTransform : Stream α → Stream β} : openings opening other →
    (∀ stream other, streams stream other → streams (transform stream) (otherTransform other)) →
    openings (opening.map transform) (other.map otherTransform)
  single (value : Value) : streams (Feed.ofItems [.ok value]) (Feed.ofItems [.ok value])
  joined {α : Type} {evaluation other : Evaluation (List α)} : evaluations evaluation other →
    streams (fun now => Feed.afterTask (evaluation.run now) now Feed.ofResult)
      fun now => Feed.afterTask (other.run now) now Feed.ofResult
  process {α β : Type} {stream other : Stream α} {step following : α → Evaluation (Option β)}
    (settings : Settings) : streams stream other →
    (∀ value, evaluations (step value) (following value)) →
    streams (stream.process (left settings).errorPolicy step)
      (other.process (right settings).errorPolicy following)
  group {grouping : Grouping} {context other : Context} {records others : Stream Value} :
    context.Alike left right clocks sharing other →
    (∀ row, evaluations (grouping.contribution (context.withRow row))
      (grouping.contribution (other.withRow row))) →
    streams records others →
    streams (Stream.group grouping context records) (Stream.group grouping other others)
  distinct {rows other : Stream Shaped} : streams rows other →
    streams (fun now => Feed.distinct [] (rows now) now)
      fun now => Feed.distinct [] (other now) now
  sort {rows other : Stream Shaped} (descending : List Bool) : streams rows other →
    streams (fun now => Feed.sort descending (rows now) now)
      fun now => Feed.sort descending (other now) now
  row {rows other : Stream Shaped} : streams rows other →
    streams (fun now => (rows now).map Shaped.row) fun now => (other now).map Shaped.row
  limit {values other : Stream Value} (limit : Limit) : streams values other →
    streams (limit.apply values) (limit.apply other)

namespace Correspondence

/-- What is asked about groups may depend on the finished aggregates, which are those of the group.
What is asked about records may depend on them only if the two sides share them everywhere. -/
def likeness (relation : Correspondence) (grouped : Bool) : Likeness where
  contexts := Context.Alike relation.left relation.right relation.clocks
    (grouped ∨ relation.sharing)
  evaluations := relation.evaluations
  reading alike := relation.reading alike.wallClock
  ok := relation.ok
  thenCheck := relation.thenCheck
  andThen := relation.andThen
  both := relation.both
  defer := relation.defer

instance : Coe Correspondence Likeness := ⟨fun relation => relation.likeness false⟩

variable (relation : Correspondence) {context other : Context}

abbrev contexts (context other : Context) : Prop :=
  (relation.likeness false).contexts context other

theorem alike (grouped : Bool) (context : Context)
    (same : relation.clocks context.wallClock context.wallClock) :
    (relation.likeness grouped).contexts (context.withSettings relation.left)
      (context.withSettings relation.right) :=
  .withSettings context same

variable {relation}

theorem contexts_of_grouped (grouped : Bool)
    (alike : (relation.likeness grouped).contexts context other) :
    relation.contexts context other :=
  Context.Alike.mono alike fun shares => .inr (shares.resolve_left Bool.false_ne_true)

theorem sharesAggregates_of_sharing (shares : relation.sharing) (grouped : Bool) :
    (relation.likeness grouped).SharesAggregates := fun _ _ alike =>
  alike.aggregates (.inr shares)

theorem sharesAggregates_of_grouped : (relation.likeness true).SharesAggregates := fun _ _ alike =>
  alike.aggregates (.inl rfl)

theorem column_respects (grouped : Bool) (reference : ColumnRef) :
    (Mapper.column reference).Respects (relation.likeness grouped) := by
  intro context other alike
  rw [Mapper.column, Mapper.column, alike.resolve reference]
  exact relation.ok _

variable (relation)

theorem map {evaluation other : Evaluation α}
    (related : relation.evaluations evaluation other) (transform : α → β) :
    relation.evaluations (evaluation.map transform) (other.map transform) :=
  (relation.likeness false).map related transform

end Correspondence

end StreamQuery
