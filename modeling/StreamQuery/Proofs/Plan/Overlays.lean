import StreamQuery.Plan.Pipeline
import StreamQuery.Proofs.Stream.SideBySide
namespace StreamQuery

/-! Projected columns laid over the row that they were made of. Under the name of an output column
the projected value is found, whatever the row holds there. -/

namespace Value

theorem getPath?_congr {value other : Value} (same : ∀ key, value.field? key = other.field? key)
    (path : String) : value.getPath? path = other.getPath? path := by
  simp only [getPath?]
  cases Path.segments path.toList with
  | nil => rfl
  | cons head rest => simp only [getSegments?, same]

theorem getPath?_of_field? {value found : Value} {path : String}
    (present : value.field? path = some found) : value.getPath? path = some found := by
  have joined := Path.join_segments path.toList
  rw [String.ofList_toList] at joined
  simp only [getPath?]
  cases segments : Path.segments path.toList with
  | nil => exact absurd segments (Path.segments_ne_nil _)
  | cons head rest =>
      rw [segments] at joined
      simp only [getSegments?, joined, present]

theorem field?_overlay (base : Value) (projected : Record) (key : String) :
    (base.overlay (.record projected)).field? key =
      (projected.get? key).or (base.toRecord?.bind fun record => Record.get? record key) := by
  cases base with
  | record fields => exact Record.get?_merge fields projected key
  | _ => exact (Option.or_none).symm

end Value

theorem Record.get?_foldl_merge (parts : List Record) (record : Record) (key : String) :
    (parts.foldl Record.merge record).get? key =
      (parts.filterMap fun part => part.get? key).getLast?.or (record.get? key) := by
  induction parts generalizing record with
  | nil => rfl
  | cons part parts induction =>
      rw [List.foldl_cons, induction, Record.get?_merge, List.filterMap_cons]
      cases part.get? key with
      | none => rfl
      | some value =>
          rw [List.getLast?_cons]
          cases (parts.filterMap fun part => part.get? key).getLast? <;> rfl

theorem Record.isSome_get?_foldl_merge {parts : List Record} {record : Record} {key : String} :
    ((parts.foldl Record.merge record).get? key).isSome ↔
      (record.get? key).isSome ∨ ∃ part ∈ parts, (part.get? key).isSome := by
  have later : (parts.filterMap fun part => part.get? key).getLast?.isSome ↔
      ∃ part ∈ parts, (part.get? key).isSome := by
    rw [List.getLast?_isSome, ne_eq, List.filterMap_eq_nil_iff]
    simp only [not_forall, exists_prop, Option.isSome_iff_ne_none, ne_eq]
  rw [get?_foldl_merge, Option.isSome_or, Bool.or_eq_true, later, or_comm]

namespace Projection

/-- The projected row has a column of that name, or all fields of the row. -/
def Shows (projection : Projection) (name : String) : Prop :=
  projection.passesThrough ∨ .wildcard ∈ projection.columns ∨
    ∃ mapper, .named name mapper ∈ projection.columns

variable {projection : Projection} {context : Context} {projected : Value} {name : String}

theorem fields_of_gives (selects : projection.passesThrough = false)
    (gives : (projection.apply context).Gives (fun _ => True) (.ok projected)) :
    ∃ record, projected = .record record ∧ ∀ column ∈ projection.columns, ∃ part,
      (column.fields context).Gives (fun _ => True) (.ok part) ∧
        ∀ key, (Record.get? part key).isSome → (Record.get? record key).isSome := by
  simp only [apply, selects, Bool.false_eq_true, if_false] at gives
  rcases gives.of_map with ⟨parts, gathered, same⟩
  cases parts with
  | error error => cases same
  | ok parts =>
      cases same
      refine ⟨_, rfl, fun column member => ?_⟩
      rcases gathered.exists_of_all (List.mem_map_of_mem member) with ⟨part, among, gives⟩
      exact ⟨part, gives, fun key present =>
        Record.isSome_get?_foldl_merge.mpr (.inr ⟨part, among, present⟩)⟩

theorem field?_overlay_self (row : Value) (key : String) :
    (row.overlay row).field? key = row.field? key := by
  cases row with
  | record fields => exact (Value.field?_overlay _ fields key).trans Option.or_self
  | _ => rfl

theorem field?_overlay_wildcard {record part : Record}
    (whole : (Column.wildcard.fields context).Gives (fun _ => True) (.ok part))
    (holds : ∀ key, (Record.get? part key).isSome → (Record.get? record key).isSome)
    (key : String) :
    (context.row.overlay (.record record)).field? key = (Value.record record).field? key := by
  rw [Value.field?_overlay]
  cases covered : context.row.toRecord?.bind fun fields => Record.get? fields key with
  | none => exact Option.or_none
  | some value =>
      rcases Option.bind_eq_some_iff.mp covered with ⟨fields, isRecord, present⟩
      have all : part = fields := by
        rw [Except.ok.inj whole.of_ok, isRecord]
        rfl
      exact Option.or_of_isSome (holds key (by rw [all, present]; rfl))

theorem getPath?_overlay (shows : projection.Shows name)
    (gives : (projection.apply context).Gives (fun _ => True) (.ok projected)) :
    (context.row.overlay projected).getPath? name = projected.getPath? name := by
  cases selects : projection.passesThrough with
  | true =>
      simp only [apply, selects, if_true] at gives
      cases Except.ok.inj gives.of_ok
      exact Value.getPath?_congr (field?_overlay_self context.row) name
  | false =>
      rcases fields_of_gives selects gives with ⟨record, rfl, fields⟩
      rcases shows with passes | all | ⟨mapper, named⟩
      · rw [selects] at passes
        cases passes
      · rcases fields _ all with ⟨part, whole, holds⟩
        exact Value.getPath?_congr (field?_overlay_wildcard whole holds) name
      · rcases fields _ named with ⟨part, only, holds⟩
        rcases only.of_map with ⟨value | value, _, same⟩ <;> cases same
        rcases Option.isSome_iff_exists.mp (holds name (by simp [Record.get?])) with
          ⟨found, present⟩
        have own : (Value.record record).field? name = some found := present
        have laid : (context.row.overlay (.record record)).field? name = some found := by
          rw [Value.field?_overlay, present]
          rfl
        rw [Value.getPath?_of_field? laid, Value.getPath?_of_field? own]

end Projection

end StreamQuery
