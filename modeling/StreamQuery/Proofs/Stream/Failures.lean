import StreamQuery.Proofs.Results
import StreamQuery.Proofs.Stream.SideBySide
import StreamQuery.Stream.Stage
namespace StreamQuery

/-! The errors that work and feeds can show, over sources that fail with source errors only. -/

def QueryError.isSource : QueryError → Bool
  | .source .. => true
  | _ => false

theorem QueryError.isFatal_of_isSource {error : QueryError} (source : error.isSource) :
    error.isFatal := by
  cases error <;> first | rfl | cases source

variable {allowed : QueryError → Prop}

/-! Sources. -/

/-- A source that is not to be had, or one of its deliveries, fails as a source. -/
def Script.FailsAsSource : Except QueryError Script → Prop
  | .ok script => ∀ delivery ∈ script.deliveries, FailsOnly (·.isSource) delivery.item
  | .error error => error.isSource

namespace Sources

def FailAsSources : Sources → Prop
  | .named scripts _ => ∀ entry ∈ scripts, Script.FailsAsSource (.ok entry.2)
  | .single script _ => Script.FailsAsSource (.ok script)

theorem FailAsSources.request {sources : Sources} (fail : sources.FailAsSources) (name : String) :
    Script.FailsAsSource (sources.request name).1 ∧ (sources.request name).2.FailAsSources := by
  cases sources with
  | named scripts tables =>
      refine ⟨?_, fail⟩
      simp only [Sources.request, findNamed]
      split
      · next found => exact fail _ (List.mem_of_find?_eq_some found)
      · intro delivery member
        rcases List.mem_map.mp member with ⟨value, _, rfl⟩
        exact failsOnly_ok value
      · rfl
  | single script opened =>
      cases opened with
      | false => exact ⟨fail, fail⟩
      | true => exact ⟨rfl, fail⟩

end Sources

/-! Work. -/

def Task.FailsOnly (allowed : QueryError → Prop) (task : Task (Except QueryError α)) : Prop :=
  ∀ result, task.Gives Script.FailsAsSource result → StreamQuery.FailsOnly allowed result

namespace Evaluation

/-- In some course of events the evaluation fails with the error. -/
def CanFail (evaluation : Evaluation α) (error : QueryError) : Prop :=
  evaluation.Gives Script.FailsAsSource (.error error)

def FailsOnly (allowed : QueryError → Prop) (evaluation : Evaluation α) : Prop :=
  ∀ error, evaluation.CanFail error → allowed error

theorem failsOnly_ok (value : α) : (ok value).FailsOnly allowed := by
  rintro error ⟨now, gives⟩
  cases gives

theorem failsOnly_reading {read : Nat → Except QueryError α}
    (fails : ∀ now, StreamQuery.FailsOnly allowed (read now)) :
    (reading read).FailsOnly allowed := by
  rintro error ⟨now, gives⟩
  exact fails now error (Task.Gives.of_done gives).symm

variable {evaluation : Evaluation α}

theorem FailsOnly.run (fails : evaluation.FailsOnly allowed) (now : Nat) :
    (evaluation.run now).FailsOnly allowed := by
  rintro result gives error rfl
  exact fails error ⟨now, gives⟩

theorem FailsOnly.thenCheck {next : α → Except QueryError β} (fails : evaluation.FailsOnly allowed)
    (checks : ∀ value, evaluation.Gives Script.FailsAsSource (.ok value) →
      StreamQuery.FailsOnly allowed (next value)) :
    (evaluation.thenCheck next).FailsOnly allowed := by
  intro error gives
  rcases Gives.of_thenCheck gives with ⟨first, gives, same⟩
  cases first with
  | ok value => exact checks value gives error same.symm
  | error error =>
      cases same
      exact fails error gives

theorem FailsOnly.map (fails : evaluation.FailsOnly allowed) (transform : α → β) :
    (evaluation.map transform).FailsOnly allowed :=
  fails.thenCheck fun _ _ => StreamQuery.failsOnly_ok _

theorem FailsOnly.both {second : Evaluation β} (fails : evaluation.FailsOnly allowed)
    (secondFails : second.FailsOnly allowed) : (evaluation.both second).FailsOnly allowed := by
  intro error gives
  rcases Gives.of_both gives with ⟨_, _, same, _⟩ | ⟨_, same, failed⟩
  · cases same
  · cases same
    exact failed.elim (fails error) (secondFails error)

theorem FailsOnly.andThen {next : α → Evaluation β} (fails : evaluation.FailsOnly allowed)
    (continues : ∀ value, (next value).FailsOnly allowed) :
    (evaluation.andThen next).FailsOnly allowed := by
  intro error gives
  rcases Gives.of_andThen gives with ⟨value, _, gives⟩ | ⟨_, gives, same⟩
  · exact continues value error gives
  · cases same
    exact fails error gives

theorem FailsOnly.defer (fails : evaluation.FailsOnly allowed) :
    evaluation.defer.FailsOnly allowed :=
  fails

end Evaluation

theorem Opening.Always.failsOnly {holds : α → Prop} {opening : Opening α}
    {work : α → Nat → Task (Except QueryError β)}
    (always : opening.Always Script.FailsAsSource holds)
    (fails : ∀ value, holds value → ∀ now, (work value now).FailsOnly allowed) :
    Evaluation.FailsOnly allowed (opening.map work) := by
  rintro error ⟨now, gives⟩
  rw [Evaluation.run, Opening.toTask_map] at gives
  rcases always.of_toTask gives with ⟨value, valid, gives⟩
  exact fails value valid now _ gives error rfl

/-! Feeds. -/

namespace Feed

abbrev FailsOnly (allowed : QueryError → Prop) (feed : Feed α) : Prop :=
  feed.Each Script.FailsAsSource (StreamQuery.FailsOnly allowed)

theorem failsOnly_ofItems {items : List (Except QueryError α)}
    (fails : ∀ item ∈ items, StreamQuery.FailsOnly allowed item) (now : Nat) :
    (ofItems items now).FailsOnly allowed :=
  each_emit fails (fun _ => .finished) now

theorem failsOnly_values (values : List α) {rest : Stream α}
    (restFails : ∀ now, (rest now).FailsOnly allowed) (now : Nat) :
    (emit (values.map .ok) rest now).FailsOnly allowed := by
  refine each_emit ?_ restFails now
  intro entry member
  rcases List.mem_map.mp member with ⟨value, _, rfl⟩
  exact failsOnly_ok value

theorem failsOnly_ofResult {result : Except QueryError (List α)}
    (fails : StreamQuery.FailsOnly allowed result) (now : Nat) :
    (ofResult result now).FailsOnly allowed := by
  cases result with
  | ok values => exact failsOnly_values values (fun _ => .finished) now
  | error error =>
      exact failsOnly_ofItems (List.forall_mem_singleton.mpr (failsOnly_error fails.of_error)) now

variable {feed : Feed α}

theorem FailsOnly.map (fails : feed.FailsOnly allowed) (transform : α → β) :
    (feed.map transform).FailsOnly allowed := by
  induction fails with
  | finished => exact .finished
  | item entry _ induction => exact .item (entry.map transform) induction
  | waiting _ induction => exact .waiting induction
  | opening _ induction => exact .opening induction
  | silent => exact .silent

theorem FailsOnly.of_first (fails : feed.FailsOnly allowed)
    {found : Option (Except QueryError α)}
    (gives : feed.first.Gives Script.FailsAsSource found) :
    ∀ item ∈ found, StreamQuery.FailsOnly allowed item := by
  induction fails with
  | finished =>
      cases gives
      exact fun _ none => nomatch none
  | item entryFails _ _ =>
      cases gives
      exact fun _ same => Option.some.inj same ▸ entryFails
  | waiting _ induction =>
      cases gives with
      | waiting resumed gives => exact induction resumed gives
  | opening _ induction =>
      cases gives with
      | opening asSource gives => exact induction _ asSource gives
  | silent => cases gives

theorem FailsOnly.first (fails : feed.FailsOnly allowed)
    {next : Option (Except QueryError α) → Except QueryError β}
    (continues : ∀ found, (∀ item ∈ found, StreamQuery.FailsOnly allowed item) →
      StreamQuery.FailsOnly allowed (next found)) :
    (feed.first.map next).FailsOnly allowed := by
  intro result gives
  rcases gives.of_map with ⟨found, first, rfl⟩
  exact continues found (fails.of_first first)

theorem FailsOnly.collect (fails : feed.FailsOnly allowed) (collected : List α) (now : Nat) :
    (feed.collect collected now).FailsOnly allowed := by
  intro result gives
  induction fails generalizing collected now with
  | finished =>
      cases gives
      exact failsOnly_ok _
  | @item entry rest entryFails _ induction =>
      cases entry with
      | ok value => exact induction now _ now gives
      | error error =>
          cases gives
          exact failsOnly_error entryFails.of_error
  | waiting _ induction =>
      cases gives with
      | waiting resumed gives => exact induction resumed collected resumed gives
  | opening _ induction =>
      cases gives with
      | opening asSource gives => exact induction _ asSource collected now gives
  | silent => cases gives

/-! Stages. A step that fails is passed over, unless its failure is one of the run as a whole. -/

theorem isFatal_of_not_skips {error : QueryError} (ends : ¬ErrorPolicy.skip.skips error) :
    error.isFatal := by
  simpa [ErrorPolicy.skips] using ends

theorem FailsOnly.process {policy : ErrorPolicy} {step : α → Evaluation (Option β)}
    (fails : feed.FailsOnly allowed)
    (steps : ∀ value error, (step value).CanFail error → ¬policy.skips error → allowed error)
    (now : Nat) : (feed.process policy step now).FailsOnly allowed := by
  induction fails generalizing now with
  | finished => exact .finished
  | @item entry rest entryFails _ induction =>
      cases entry with
      | error error => exact .item (failsOnly_error entryFails.of_error) fun _ => .finished
      | ok value =>
          simp only [Feed.process]
          refine each_afterTask ?_ now
          intro result later gives
          split
          · exact .item (failsOnly_ok _) fun now => induction now now
          · exact induction later later
          · next error =>
              split
              · exact induction later later
              · next ends =>
                  have own := steps value error ⟨now, gives⟩ ends
                  exact .item (failsOnly_error own) fun _ => .finished
  | waiting _ induction => exact .waiting fun now => induction now now
  | opening _ induction => exact .opening fun answer asSource => induction answer asSource now
  | silent => exact .silent

theorem FailsOnly.process_skip {step : α → Evaluation (Option β)} (fails : feed.FailsOnly allowed)
    (fatal : ∀ error : QueryError, error.isFatal → allowed error) (now : Nat) :
    (feed.process .skip step now).FailsOnly allowed :=
  fails.process (fun _ error _ ends => fatal error (isFatal_of_not_skips ends)) now

theorem FailsOnly.distinct {feed : Feed Shaped} (fails : feed.FailsOnly allowed)
    (seen : List Value) (now : Nat) : (feed.distinct seen now).FailsOnly allowed := by
  induction fails generalizing seen now with
  | finished => exact .finished
  | @item entry rest entryFails _ induction =>
      cases entry with
      | error error =>
          exact .item (failsOnly_error entryFails.of_error) fun now => induction now seen now
      | ok shaped =>
          simp only [Feed.distinct]
          split
          · exact induction now seen now
          · exact .item (failsOnly_ok shaped) fun now => induction now _ now
  | waiting _ induction => exact .waiting fun now => induction now seen now
  | opening _ induction => exact .opening fun answer asSource => induction answer asSource seen now
  | silent => exact .silent

theorem FailsOnly.sort {feed : Feed Shaped} (fails : feed.FailsOnly allowed)
    (descending : List Bool) (now : Nat) : (feed.sort descending now).FailsOnly allowed :=
  each_afterTask (fun result later gives =>
    failsOnly_ofResult ((fails.collect [] now result gives).map _) later) now

theorem FailsOnly.skip (fails : feed.FailsOnly allowed) (offset now : Nat) :
    (Feed.skip offset feed now).FailsOnly allowed := by
  induction fails generalizing offset now with
  | finished =>
      simp only [Feed.skip]
      exact .finished
  | @item entry rest entryFails _ induction =>
      cases entry with
      | error error =>
          simp only [Feed.skip]
          exact .item (failsOnly_error entryFails.of_error) fun now => induction now offset now
      | ok value =>
          cases offset with
          | zero => exact .item (failsOnly_ok value) fun now => induction now 0 now
          | succ offset => exact induction now offset now
  | waiting _ induction =>
      simp only [Feed.skip]
      exact .waiting fun now => induction now offset now
  | opening _ induction =>
      simp only [Feed.skip]
      exact .opening fun answer asSource => induction answer asSource offset now
  | silent =>
      simp only [Feed.skip]
      exact .silent

theorem FailsOnly.take (fails : feed.FailsOnly allowed) (count : Nat) :
    (feed.take count).FailsOnly allowed := by
  induction fails generalizing count with
  | finished => exact .finished
  | item entry _ induction =>
      refine .item entry fun now => ?_
      split
      · exact .finished
      · exact induction now _
  | waiting _ induction => exact .waiting fun now => induction now count
  | opening _ induction => exact .opening fun answer asSource => induction answer asSource count
  | silent => exact .silent

theorem FailsOnly.run (fails : feed.FailsOnly allowed) (wanted : Option Nat) (world : World)
    (sources : world.sources.FailAsSources) :
    ∀ entry ∈ (Feed.run wanted feed world).items, StreamQuery.FailsOnly allowed entry.2 := by
  induction fails generalizing wanted world with
  | finished => exact List.forall_mem_nil _
  | item entryFails _ induction =>
      simp only [Feed.run]
      split
      · exact List.forall_mem_cons.mpr ⟨entryFails, induction _ _ _ sources⟩
      · exact List.forall_mem_singleton.mpr entryFails
      · exact List.forall_mem_cons.mpr ⟨entryFails, induction _ _ _ sources⟩
  | waiting _ induction => exact induction _ _ _ sources
  | opening _ induction =>
      have answered := sources.request
      exact induction _ (answered _).1 _ _ (answered _).2
  | silent => exact List.forall_mem_nil _

end Feed

namespace Stream

def FailsOnly (allowed : QueryError → Prop) (stream : Stream α) : Prop :=
  ∀ now, (stream now).FailsOnly allowed

theorem failsOnly_run {opening : Opening (Stream α)}
    (fails : opening.Always Script.FailsAsSource (FailsOnly allowed)) (wanted : Option Nat)
    (world : World) (sources : world.sources.FailAsSources) :
    ∀ entry ∈ (Stream.run wanted opening world).items, StreamQuery.FailsOnly allowed entry.2 := by
  induction fails generalizing world with
  | done holds =>
      simp only [Stream.run, Opening.run]
      split
      · exact List.forall_mem_nil _
      · exact (holds world.now).run wanted world sources
  | opening _ induction =>
      have answered := sources.request
      exact induction _ (answered _).1 _ (answered _).2

end Stream

namespace Limit

theorem failsOnly_apply {stream : Stream α} (fails : stream.FailsOnly allowed) (limit : Limit) :
    (limit.apply stream).FailsOnly allowed := by
  intro now
  simp only [Limit.apply]
  split
  · exact (fails now).skip _ now
  · exact .finished
  · exact ((fails now).skip _ now).take _

end Limit

end StreamQuery
