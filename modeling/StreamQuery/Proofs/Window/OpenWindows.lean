import StreamQuery.Window.Grouping
namespace StreamQuery

/-! The open windows are kept in the order of their numbers, each number once. -/

namespace OpenWindows

def Ascending (windows : OpenWindows) : Prop :=
  windows.Pairwise fun earlier later => earlier.1 < later.1

theorem mem_insert {windows : OpenWindows} (ascending : windows.Ascending) (id : Nat)
    (table : GroupTable) (window : Nat × GroupTable) :
    window ∈ windows.insert id table ↔
      window = (id, table) ∨ window.1 ≠ id ∧ window ∈ windows := by
  induction windows with
  | nil => simp [insert]
  | cons first rest induction =>
      have parts := List.pairwise_cons.mp ascending
      simp only [insert]
      split
      · next same =>
          subst same
          have others : window ∈ rest → window.1 ≠ first.1 := fun member =>
            Nat.ne_of_gt (parts.1 window member)
          constructor
          · intro member
            rcases List.mem_cons.mp member with equal | member
            · exact .inl equal
            · exact .inr ⟨others member, List.mem_cons_of_mem _ member⟩
          · rintro (equal | ⟨different, member⟩)
            · exact List.mem_cons.mpr (.inl equal)
            · rcases List.mem_cons.mp member with equal | member
              · exact absurd (congrArg Prod.fst equal) different
              · exact List.mem_cons_of_mem _ member
      · next different =>
          split
          · next less =>
              have others : window ∈ first :: rest → window.1 ≠ id := by
                intro member
                rcases List.mem_cons.mp member with equal | member
                · subst equal
                  exact Ne.symm different
                · exact Nat.ne_of_gt (Nat.lt_trans less (parts.1 window member))
              rw [List.mem_cons]
              exact or_congr_right ⟨fun member => ⟨others member, member⟩, And.right⟩
          · rw [List.mem_cons, induction parts.2, List.mem_cons]
            constructor
            · rintro (equal | equal | ⟨other, member⟩)
              · exact .inr ⟨fun same => different (equal ▸ same.symm), .inl equal⟩
              · exact .inl equal
              · exact .inr ⟨other, .inr member⟩
            · rintro (equal | ⟨other, equal | member⟩)
              · exact .inr (.inl equal)
              · exact .inl equal
              · exact .inr (.inr ⟨other, member⟩)

theorem Ascending.insert {windows : OpenWindows} (ascending : windows.Ascending) (id : Nat)
    (table : GroupTable) : (windows.insert id table).Ascending := by
  induction windows with
  | nil => exact List.pairwise_singleton _ _
  | cons first rest induction =>
      have parts := List.pairwise_cons.mp ascending
      simp only [OpenWindows.insert]
      split
      · next same => exact List.pairwise_cons.mpr ⟨same ▸ parts.1, parts.2⟩
      · next different =>
          split
          · next less =>
              refine List.pairwise_cons.mpr ⟨?_, ascending⟩
              intro window member
              rcases List.mem_cons.mp member with equal | member
              · exact equal ▸ less
              · exact Nat.lt_trans less (parts.1 window member)
          · next greater =>
              refine List.pairwise_cons.mpr ⟨?_, induction parts.2⟩
              intro window member
              rcases (mem_insert parts.2 id table window).mp member with equal | ⟨_, member⟩
              · subst equal
                exact Nat.lt_of_le_of_ne (Nat.le_of_not_lt greater) (Ne.symm different)
              · exact parts.1 window member

theorem Ascending.table_of_mem {windows : OpenWindows} (ascending : windows.Ascending) {id : Nat}
    {groups : GroupTable} (member : (id, groups) ∈ windows) : windows.table id = groups := by
  induction windows with
  | nil => cases member
  | cons first rest induction =>
      have parts := List.pairwise_cons.mp ascending
      rcases List.mem_cons.mp member with equal | member
      · subst equal
        simp [OpenWindows.table]
      · have different : first.1 ≠ id := Nat.ne_of_lt (parts.1 _ member)
        have later := induction parts.2 member
        simpa [OpenWindows.table, List.find?_cons, different] using later

theorem Ascending.eq_of_mem_iff {windows others : OpenWindows} (ascending : windows.Ascending)
    (otherAscending : others.Ascending) (same : ∀ window, window ∈ windows ↔ window ∈ others) :
    windows = others := by
  have nodup {windows : OpenWindows} (ascending : windows.Ascending) : windows.Nodup :=
    ascending.imp fun less equal => Nat.ne_of_lt less (congrArg Prod.fst equal)
  have perm := (List.perm_ext_iff_of_nodup (nodup ascending) (nodup otherAscending)).mpr same
  exact perm.eq_of_pairwise (fun _ _ _ _ less greater => absurd greater (Nat.lt_asymm less))
    ascending otherAscending

theorem table_of_forall_ne {windows : OpenWindows} {id : Nat} (absent : ∀ window ∈ windows, window.1 ≠ id) :
    windows.table id = GroupTable.empty := by
  have none : windows.find? (fun window => window.1 == id) = none :=
    List.find?_eq_none.mpr fun window member => by simpa using absent window member
  simp [OpenWindows.table, none]

end OpenWindows

namespace Window

theorem covering_pairwise (position size step : Nat) :
    (covering position size step).Pairwise (· < ·) := by
  simp only [covering]
  exact List.Pairwise.map _ (fun _ _ less => Nat.add_lt_add_left less _) List.pairwise_lt_range

theorem covering_nodup (position size step : Nat) : (covering position size step).Nodup :=
  (covering_pairwise position size step).imp Nat.ne_of_lt

end Window

theorem Grouping.windowsOf_nodup (grouping : Grouping) (state : GroupState) (elapsed : Nat) :
    (grouping.windowsOf state elapsed).Nodup := by
  simp only [windowsOf]
  split
  · exact List.pairwise_singleton _ 0
  · exact List.pairwise_singleton _ _
  · exact Window.covering_nodup _ _ _
  · exact Window.covering_nodup _ _ _

end StreamQuery
