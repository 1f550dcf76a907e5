import StreamQuery.Proofs.Aggregate.GroupBy
import StreamQuery.Proofs.Window.Admission
namespace StreamQuery

/-! Windows of one size, one step apart, over records at positions. Time windows take the instant of
a record for its position, count windows its number. -/

structure Entry where
  row : Value
  record : Contribution

def Entry.addition (entry : Entry) : Addition :=
  ⟨entry.record.key, entry.row, entry.record.operands⟩

namespace Window

/-- The position lies in the window of this number. -/
def Covers (size step id position : Nat) : Prop :=
  id * step ≤ position ∧ position < id * step + size

instance (size step id position : Nat) : Decidable (Covers size step id position) :=
  inferInstanceAs (Decidable (_ ∧ _))

/-- The records that lie in a window. -/
def within (size step id : Nat) (placed : List (Nat × Entry)) : List Entry :=
  (placed.filter fun entry => Covers size step id entry.1).map (·.2)

theorem within_append (size step id : Nat) (first second : List (Nat × Entry)) :
    within size step id (first ++ second) =
      within size step id first ++ within size step id second := by
  simp [within]

theorem within_singleton_of_covers {size step id position : Nat} (entry : Entry)
    (covers : Covers size step id position) : within size step id [(position, entry)] = [entry] := by
  simp [within, covers]

theorem within_singleton_of_not_covers {size step id position : Nat} (entry : Entry)
    (outside : ¬Covers size step id position) : within size step id [(position, entry)] = [] := by
  simp [within, outside]

end Window

namespace Grouping

variable (grouping : Grouping) (maxGroups : Option Nat)

def addEntry (table : GroupTable) (entry : Entry) : GroupTable :=
  (table.update grouping.aggregations maxGroups entry.record.key entry.row
    entry.record.operands).1

def tableOf (entries : List Entry) : GroupTable :=
  entries.foldl (grouping.addEntry maxGroups) GroupTable.empty

/-- The rows of the groups that records make, told from the records. -/
def rowsOver (entries : List Entry) : Except QueryError (List GroupRow) :=
  Addition.groupBy grouping.aggregations (entries.map Entry.addition)

/-- The records were all taken into their groups. -/
def Grouped (entries : List Entry) : Prop :=
  (grouping.tableOf maxGroups entries).Groups grouping.aggregations (entries.map Entry.addition)
    (Addition.firsts (entries.map Entry.addition))

/-- The windows that are closed, and then the open ones, are those in which records lie, in
ascending order and each once, with the groups of just these records. -/
structure Placed (size step : Nat) (closed windows : OpenWindows)
    (placed : List (Nat × Entry)) : Prop where
  ascending : (closed ++ windows).Ascending
  exact : ∀ id table, (id, table) ∈ closed ++ windows ↔
    Window.within size step id placed ≠ [] ∧
      table = grouping.tableOf maxGroups (Window.within size step id placed)
  grouped : ∀ id, grouping.Grouped maxGroups (Window.within size step id placed)

variable {grouping maxGroups}

theorem Grouped.start : grouping.Grouped maxGroups [] :=
  GroupTable.Groups.start

theorem Grouped.concat {entries : List Entry} {entry : Entry}
    (grouped : grouping.Grouped maxGroups entries)
    (checked : checkOperands grouping.aggregations entry.record.operands = .ok ())
    (admitted : (grouping.tableOf maxGroups entries).admits maxGroups entry.record.key = .ok ()) :
    grouping.Grouped maxGroups (entries ++ [entry]) := by
  rw [Grouped, tableOf, List.foldl_concat, List.map_append]
  have next : Grouping.checkOperands grouping.aggregations entry.addition.operands = .ok () := checked
  exact GroupTable.Groups.of_update grouped next admitted rfl

theorem Grouped.rowsOver_eq {entries : List Entry} (grouped : grouping.Grouped maxGroups entries) :
    grouping.rowsOver entries = .ok (grouping.tableOf maxGroups entries).finish :=
  grouped.mapM_groupRow

theorem Placed.start (size step : Nat) : grouping.Placed maxGroups size step [] [] [] where
  ascending := List.Pairwise.nil
  exact _ _ := ⟨fun member => (nomatch member), fun parts => (parts.1 rfl).elim⟩
  grouped _ := .start

theorem Placed.close {closed closing windows : OpenWindows}
    (before : grouping.Placed maxGroups size step closed (closing ++ windows) placed) :
    grouping.Placed maxGroups size step (closed ++ closing) windows placed where
  ascending := by
    rw [List.append_assoc]
    exact before.ascending
  exact := by
    rw [List.append_assoc]
    exact before.exact
  grouped := before.grouped

theorem mem_addToAll {row : Value} {record : Contribution} {ids : List Nat}
    {windows added : OpenWindows} (ascending : windows.Ascending) (nodup : ids.Nodup)
    (adds : grouping.addToAll maxGroups row record ids windows = (added, .ok ())) :
    added.Ascending ∧ ∀ id table,
      (id ∈ ids → ((id, table) ∈ added ↔
        table = grouping.addEntry maxGroups (windows.table id) ⟨row, record⟩)) ∧
      (id ∉ ids → ((id, table) ∈ added ↔ (id, table) ∈ windows)) := by
  induction ids generalizing windows with
  | nil =>
      cases adds
      exact ⟨ascending, fun _ _ => ⟨fun member => (nomatch member), fun _ => Iff.rfl⟩⟩
  | cons first ids induction =>
      have parts := List.nodup_cons.mp nodup
      simp only [addToAll] at adds
      split at adds
      · rcases induction (ascending.insert first _) parts.2 adds with ⟨addedAscending, members⟩
        refine ⟨addedAscending, ?_⟩
        intro id table
        by_cases same : id = first
        · subst same
          refine ⟨?_, fun absent => absurd List.mem_cons_self absent⟩
          intro _
          rw [(members id table).2 parts.1, OpenWindows.mem_insert ascending]
          simp [addEntry]
        · rw [List.mem_cons, or_iff_right same]
          constructor
          · intro member
            rw [(members id table).1 member, OpenWindows.table_insert, if_neg (Ne.symm same)]
          · intro absent
            rw [(members id table).2 absent, OpenWindows.mem_insert ascending]
            simp [same]
      · cases adds

theorem Placed.table {size step : Nat} {closed windows : OpenWindows}
    {placed : List (Nat × Entry)} (before : grouping.Placed maxGroups size step closed windows placed)
    {id : Nat} (unclosed : ∀ window ∈ closed, window.1 ≠ id) :
    windows.table id = grouping.tableOf maxGroups (Window.within size step id placed) := by
  have windowsAscending := (List.pairwise_append.mp before.ascending).2.1
  by_cases none : Window.within size step id placed = []
  · rw [none]
    apply OpenWindows.table_of_forall_ne
    intro window member same
    subst same
    exact ((before.exact window.1 window.2).mp (List.mem_append_right closed member)).1 none
  · have member := (before.exact id _).mpr ⟨none, rfl⟩
    rcases List.mem_append.mp member with member | member
    · exact absurd rfl (unclosed _ member)
    · exact OpenWindows.Ascending.table_of_mem windowsAscending member

/-- A record is placed once in every window that covers its position. No closed window reaches
that far, so these windows are open or begin with the record. -/
theorem Placed.add {size step position : Nat} {closed windows added : OpenWindows}
    {placed : List (Nat × Entry)} (positive : 0 < step)
    (before : grouping.Placed maxGroups size step closed windows placed)
    (passed : ∀ window ∈ closed, window.1 * step + size ≤ position)
    (admits : grouping.admits maxGroups record windows (Window.covering position size step) = .ok ())
    (adds : grouping.addToAll maxGroups row record (Window.covering position size step) windows =
      (added, .ok ())) :
    grouping.Placed maxGroups size step closed added (placed ++ [(position, ⟨row, record⟩)]) := by
  rcases List.pairwise_append.mp before.ascending with ⟨closedAscending, windowsAscending, apart⟩
  rcases mem_addToAll windowsAscending (Window.covering_nodup position size step) adds with
    ⟨addedAscending, members⟩
  have covers (id : Nat) :
      id ∈ Window.covering position size step ↔ Window.Covers size step id position :=
    Window.mem_covering positive
  have unclosed {id : Nat} (covered : Window.Covers size step id position) :
      ∀ window ∈ closed, window.1 ≠ id := by
    rintro window member rfl
    exact Nat.lt_irrefl _ (Nat.lt_of_lt_of_le covered.2 (passed window member))
  constructor
  case ascending =>
    refine List.pairwise_append.mpr ⟨closedAscending, addedAscending, ?_⟩
    intro window member
    rintro ⟨id, table⟩ new
    by_cases covered : Window.Covers size step id position
    · have less : window.1 * step < id * step := by
        have end_ := passed window member
        have start := covered.2
        omega
      exact Nat.lt_of_mul_lt_mul_right less
    · have old := ((members id table).2 (mt (covers id).mp covered)).mp new
      exact apart window member (id, table) old
  case exact =>
    intro id table
    rw [Window.within_append, List.mem_append]
    by_cases covered : Window.Covers size step id position
    · have outside : (id, table) ∉ closed := fun member => unclosed covered _ member rfl
      rw [Window.within_singleton_of_covers _ covered,
        (members id table).1 ((covers id).mpr covered), before.table (unclosed covered)]
      simp [outside, tableOf]
    · rw [Window.within_singleton_of_not_covers _ covered,
        (members id table).2 (mt (covers id).mp covered), List.append_nil, ← before.exact,
        List.mem_append]
  case grouped =>
    intro id
    have parts := admits_ok_iff.mp admits
    rw [Window.within_append]
    by_cases covered : Window.Covers size step id position
    · rw [Window.within_singleton_of_covers _ covered]
      have admitted := parts.2 id ((covers id).mpr covered)
      rw [before.table (unclosed covered)] at admitted
      exact (before.grouped id).concat parts.1 admitted
    · rw [Window.within_singleton_of_not_covers _ covered, List.append_nil]
      exact before.grouped id

end Grouping

/-- Where an accepted record was placed, counted from the start. -/
def GroupTurn.placement? (turn : GroupTurn) : Option (Nat × Entry) :=
  match turn.event with
  | .accepted _ placed row record => some (placed, ⟨row, record⟩)
  | _ => none

namespace Grouping

def placedBy (turns : List GroupTurn) : List (Nat × Entry) :=
  turns.filterMap GroupTurn.placement?

theorem placedBy_concat (before : List GroupTurn) (turn : GroupTurn) :
    placedBy (before ++ [turn]) = placedBy before ++ turn.placement?.toList := by
  cases placement : turn.placement? <;> simp [placedBy, placement]

/-- The grouping that counts the records of every window. -/
def counting (window : Window) : Grouping :=
  ⟨[], some window, [⟨none, .countRows⟩]⟩

end Grouping

end StreamQuery
