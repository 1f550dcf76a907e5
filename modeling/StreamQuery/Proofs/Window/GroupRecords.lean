import StreamQuery.Proofs.Aggregate.Runs
import StreamQuery.Proofs.Aggregate.Slots
import StreamQuery.Proofs.Window.Placement
namespace StreamQuery

/-! The records that groups are made of. A record belongs to the first group whose key equals its
own, and the aggregates of a group are those over the operands of its records. -/

def Entry.operand (index : Nat) (entry : Entry) : Value :=
  entry.record.operands.getD index .null

structure Group.Holds (aggregations : List Aggregation) (group : Group) (entries : List Entry) :
    Prop where
  sample : entries.head?.map Entry.row = some group.sample
  accumulators : ∀ index aggregation, aggregations[index]? = some aggregation →
    ∃ accumulator, group.accumulators[index]? = some accumulator ∧
      (entries.map (Entry.operand index)).foldlM Accumulator.update (.start aggregation) =
        .ok accumulator

variable {aggregations : List Aggregation} {entries records accepted : List Entry} {entry : Entry}

theorem GroupTable.updateAll_ok {place : Nat} {accumulators updated : List Accumulator} {operands : List Value}
    (updates : updateAll accumulators operands = (updated, .ok ()))
    (present : accumulators[place]? = some accumulator) (given : place < operands.length) :
    ∃ next, accumulator.update (operands.getD place .null) = .ok next ∧
      updated[place]? = some next := by
  induction accumulators generalizing operands updated place with
  | nil => cases present
  | cons first accumulators induction =>
      cases operands with
      | nil => cases given
      | cons operand operands =>
          simp only [updateAll] at updates
          split at updates
          · next next update =>
              rcases others : updateAll accumulators operands with ⟨rest, result⟩
              simp only [others, Prod.mk.injEq] at updates
              rcases updates with ⟨rfl, rfl⟩
              cases place with
              | zero =>
                  cases present
                  exact ⟨next, update, rfl⟩
              | succ place =>
                  have bound : place < operands.length := Nat.lt_of_succ_lt_succ given
                  simpa using induction others present bound
          · cases updates

namespace Group.Holds

variable {group : Group}

theorem join (holds : group.Holds aggregations entries)
    (complete : entry.record.operands.length = aggregations.length)
    (updates : GroupTable.updateAll group.accumulators entry.record.operands = (updated, .ok ())) :
    Group.Holds aggregations { group with accumulators := updated } (entries ++ [entry]) where
  sample := by
    rcases Option.map_eq_some_iff.mp holds.sample with ⟨first, head, same⟩
    simp [List.head?_append, head, same]
  accumulators index aggregation present := by
    rcases holds.accumulators index aggregation present with ⟨accumulator, held, folds⟩
    have given : index < entry.record.operands.length :=
      complete ▸ (List.getElem?_eq_some_iff.mp present).1
    rcases GroupTable.updateAll_ok updates held given with ⟨next, update, kept⟩
    refine ⟨next, kept, ?_⟩
    rw [List.map_append, List.foldlM_append, folds]
    exact (bind_pure _).trans update

theorem singleton (complete : entry.record.operands.length = aggregations.length)
    (updates : GroupTable.updateAll (aggregations.map Accumulator.start) entry.record.operands =
      (started, .ok ())) : Group.Holds aggregations ⟨entry.row, started⟩ [entry] where
  sample := rfl
  accumulators index aggregation present := by
    have given : index < entry.record.operands.length :=
      complete ▸ (List.getElem?_eq_some_iff.mp present).1
    have begun : (aggregations.map Accumulator.start)[index]? = some (.start aggregation) := by
      rw [List.getElem?_map, present, Option.map_some]
    rcases GroupTable.updateAll_ok updates begun given with ⟨next, update, kept⟩
    exact ⟨next, kept, (bind_pure _).trans update⟩

end Group.Holds

namespace GroupTable

/-- The records that belong to the group in a slot. -/
def members (table : GroupTable) (slot : Nat) (records : List Entry) : List Entry :=
  records.filter fun entry => table.index.find? entry.record.key = some slot

theorem members_concat (table : GroupTable) (slot : Nat) (records : List Entry)
    (entry : Entry) : table.members slot (records ++ [entry]) =
      table.members slot records ++
        if table.index.find? entry.record.key = some slot then [entry] else [] := by
  simp [members, List.filter_append, List.filter_cons]

/-- The groups are those of the records: every record belongs to one. -/
structure Holds (aggregations : List Aggregation) (table : GroupTable) (records : List Entry) :
    Prop where
  keyed : ∃ keys, table.Keyed keys
  belongs : ∀ entry ∈ records, ∃ slot, table.index.find? entry.record.key = some slot
  groups : ∀ (slot : Nat) (group : Group), table.groups[slot]? = some group →
    group.Holds aggregations (table.members slot records)

variable {table : GroupTable} {slot : Nat}

theorem Holds.empty : empty.Holds aggregations [] where
  keyed := ⟨[], .empty⟩
  belongs _ member := nomatch member
  groups _ _ present := nomatch present

theorem Holds.eq_nil_of_empty (holds : GroupTable.empty.Holds aggregations records) :
    records = [] := by
  refine List.eq_nil_iff_forall_not_mem.mpr fun entry member => ?_
  rcases holds.belongs entry member with ⟨_, found⟩
  rw [show GroupTable.empty.index = .empty from rfl, SlotIndex.find?_empty] at found
  cases found

theorem Holds.of_updateSlot {next : GroupTable} {group : Group} (keyed : ∃ keys, table.Keyed keys)
    (belongs : ∀ entry ∈ records, ∃ slot, table.index.find? entry.record.key = some slot)
    (others : ∀ (other : Nat) (group : Group), other ≠ slot → table.groups[other]? = some group →
      group.Holds aggregations (table.members other records))
    (found : table.index.find? entry.record.key = some slot)
    (present : table.groups[slot]? = some group)
    (takes : ∀ accumulators,
      updateAll group.accumulators entry.record.operands = (accumulators, .ok ()) →
        Group.Holds aggregations { group with accumulators }
          (table.members slot records ++ [entry]))
    (updates : table.updateSlot slot entry.record.operands = (next, .ok ())) :
    next.Holds aggregations (records ++ [entry]) := by
  rcases update : updateAll group.accumulators entry.record.operands with ⟨accumulators, result⟩
  simp only [updateSlot, present, update, Prod.mk.injEq] at updates
  rcases updates with ⟨rfl, rfl⟩
  constructor
  case keyed =>
    rcases keyed with ⟨keys, keyed⟩
    have kept : (table.updateSlot slot entry.record.operands).1.Keyed keys := keyed.updateSlot
    simp only [updateSlot, present, update] at kept
    exact ⟨keys, kept⟩
  case belongs =>
    exact List.forall_mem_append.mpr ⟨belongs, List.forall_mem_singleton.mpr ⟨slot, found⟩⟩
  case groups =>
    intro other held at_
    change held.Holds aggregations (table.members other (records ++ [entry]))
    rw [members_concat, found]
    by_cases own : slot = other
    · subst own
      rw [List.getElem?_set_self (List.getElem?_eq_some_iff.mp present).1] at at_
      cases at_
      rw [if_pos rfl]
      exact takes accumulators update
    · rw [List.getElem?_set_ne own] at at_
      simpa [own] using others other held (Ne.symm own) at_

theorem Holds.join {next : GroupTable} (holds : table.Holds aggregations records)
    (complete : entry.record.operands.length = aggregations.length)
    (found : table.index.find? entry.record.key = some slot)
    (updates : table.updateSlot slot entry.record.operands = (next, .ok ())) :
    next.Holds aggregations (records ++ [entry]) := by
  rcases holds.keyed with ⟨keys, keyed⟩
  have bound := keyed.lt_of_find? found
  have present := List.getElem?_eq_getElem bound
  exact .of_updateSlot holds.keyed holds.belongs (fun other group _ => holds.groups other group)
    found present (fun _ => (holds.groups slot _ present).join complete) updates

theorem Holds.extend {next : GroupTable} (holds : table.Holds aggregations records)
    (complete : entry.record.operands.length = aggregations.length)
    (new : table.index.find? entry.record.key = none)
    (updates : (table.push aggregations entry.record.key entry.row).updateSlot table.size
      entry.record.operands = (next, .ok ())) :
    next.Holds aggregations (records ++ [entry]) := by
  rcases holds.keyed with ⟨keys, keyed⟩
  let opened := table.push aggregations entry.record.key entry.row
  have kept : ∀ other ∈ records, opened.index.find? other.record.key =
      table.index.find? other.record.key := by
    intro other member
    rcases holds.belongs other member with ⟨slot, found⟩
    rw [found]
    exact keyed.find?_push_of_some new found
  have members (slot : Nat) : opened.members slot records = table.members slot records :=
    List.filter_congr fun other member => by rw [kept other member]
  have present : opened.groups[table.size]? =
      some ⟨entry.row, aggregations.map Accumulator.start⟩ := List.getElem?_concat_length
  refine .of_updateSlot ⟨_, keyed.push new⟩ ?_ ?_ (Keyed.find?_push table _ _ _) present ?_ updates
  · intro other member
    exact kept other member ▸ holds.belongs other member
  · intro other group different present
    have before : table.groups[other]? = some group := by
      rcases Nat.lt_or_ge other table.groups.length with less | least
      · rwa [GroupTable.push, List.getElem?_append_left less] at present
      · have bound := (List.getElem?_eq_some_iff.mp present).1
        have : other ≠ table.groups.length := different
        simp only [GroupTable.push, List.length_append, List.length_singleton] at bound
        omega
    exact members other ▸ holds.groups other group before
  · intro accumulators update
    have none : opened.members table.size records = [] := by
      rw [members]
      refine List.filter_eq_nil_iff.mpr fun other _ same => ?_
      exact Nat.lt_irrefl _ (keyed.lt_of_find? (of_decide_eq_true same))
    change Group.Holds aggregations _ (opened.members table.size records ++ [entry])
    rw [none]
    exact Group.Holds.singleton complete update

theorem Holds.update {next : GroupTable} (holds : table.Holds aggregations records)
    (complete : entry.record.operands.length = aggregations.length)
    (updates : table.update aggregations maxGroups entry.record.key entry.row
      entry.record.operands = (next, .ok ())) : next.Holds aggregations (records ++ [entry]) := by
  simp only [GroupTable.update] at updates
  split at updates
  · next found => exact holds.join complete found updates
  · next new =>
      split at updates
      · cases updates
      · exact holds.extend complete new updates

end GroupTable

namespace OpenWindows

/-- The windows have the groups of the records, and no records belong to a window that is not open. -/
def Holds (aggregations : List Aggregation) (windows : OpenWindows) (records : Nat → List Entry) :
    Prop :=
  ∀ id, (windows.table id).Holds aggregations (records id)

theorem Holds.of_mem {windows : OpenWindows} {records : Nat → List Entry} {id : Nat}
    {groups : GroupTable} (holds : windows.Holds aggregations records)
    (ascending : windows.Ascending) (member : (id, groups) ∈ windows) :
    groups.Holds aggregations (records id) := by
  rw [← ascending.table_of_mem member]
  exact holds id

theorem table_of_append {closed windows : OpenWindows} (ascending : (closed ++ windows).Ascending)
    (id : Nat) : windows.table id =
      if ∃ window ∈ closed, window.1 = id then GroupTable.empty else (closed ++ windows).table id := by
  split
  · next found =>
      rcases found with ⟨window, member, rfl⟩
      apply table_of_forall_ne
      intro other among
      exact Nat.ne_of_gt ((List.pairwise_append.mp ascending).2.2 window member other among)
  · next absent =>
      have none : closed.find? (fun window => window.1 == id) = none :=
        List.find?_eq_none.mpr fun window member same => absent ⟨window, member, by simpa using same⟩
      simp [OpenWindows.table, none]

end OpenWindows

theorem Grouping.holds_addToAll {grouping : Grouping} {ids : List Nat} {windows : OpenWindows}
    {records : Nat → List Entry}
    (complete : entry.record.operands.length = grouping.aggregations.length) (nodup : ids.Nodup)
    (holds : windows.Holds grouping.aggregations records)
    (adds : grouping.addToAll maxGroups entry.row entry.record ids windows = (added, .ok ())) :
    added.Holds grouping.aggregations
      fun id => if id ∈ ids then records id ++ [entry] else records id := by
  induction ids generalizing windows records with
  | nil =>
      cases adds
      simpa using holds
  | cons first ids induction =>
      have parts := List.nodup_cons.mp nodup
      simp only [addToAll] at adds
      split at adds
      · next updated =>
          have taken := (holds first).update complete (Prod.ext rfl updated)
          let table := ((windows.table first).update grouping.aggregations maxGroups
            entry.record.key entry.row entry.record.operands).1
          have before : (windows.insert first table).Holds grouping.aggregations
              fun id => if id = first then records id ++ [entry] else records id := by
            intro id
            rw [OpenWindows.table_insert]
            by_cases same : first = id
            · subst same
              simpa [table] using taken
            · simpa [same, Ne.symm same] using holds id
          intro id
          have after := induction parts.2 before adds id
          by_cases same : id = first
          · subst same
            simpa [parts.1] using after
          · simpa [same] using after
      · cases adds

end StreamQuery
