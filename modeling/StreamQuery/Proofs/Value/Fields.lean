import StreamQuery.Value.Record
namespace StreamQuery

/-! The fields of a record stand in the order of their keys, each key once. Putting fields in keeps
it so, and it does not matter which of two goes in first. -/

namespace Record

def Ascending (record : Record) : Prop :=
  record.keys.Pairwise (· < ·)

theorem lt_of_not_lt {first second : String} (different : first ≠ second)
    (greater : ¬first < second) : second < first :=
  Std.lt_of_le_of_ne greater different.symm

theorem insert_comm {first second : String} (different : first ≠ second) (record : Record)
    (value other : Value) :
    (record.insert first value).insert second other =
      (record.insert second other).insert first value := by
  induction record with
  | nil => grind [insert, String.lt_asymm, lt_of_not_lt]
  | cons field rest induction => grind [insert, String.lt_asymm, String.lt_trans, lt_of_not_lt]

theorem mem_keys_insert (record : Record) (key : String) (value : Value) (wanted : String) :
    wanted ∈ (record.insert key value).keys ↔ wanted = key ∨ wanted ∈ record.keys := by
  induction record with
  | nil => simp [insert, keys]
  | cons field rest induction =>
      simp only [keys] at induction ⊢
      simp only [insert]
      split
      · next same => simp [same]
      · split
        · simp
        · simp [induction, or_left_comm]

theorem keys_insert_perm {record : Record} {key : String} (absent : key ∉ record.keys)
    (value : Value) : (record.insert key value).keys.Perm (key :: record.keys) := by
  induction record with
  | nil => exact .refl _
  | cons field rest induction =>
      have parts := not_or.mp (mt List.mem_cons.mpr absent)
      simp only [insert]
      split
      · next same => exact absurd same parts.1
      · split
        · exact .refl _
        · exact (List.Perm.cons _ (induction parts.2)).trans (.swap _ _ _)

theorem Ascending.insert {record : Record} (ascending : record.Ascending) (key : String)
    (value : Value) : (record.insert key value).Ascending := by
  induction record with
  | nil => exact List.pairwise_singleton _ _
  | cons field rest induction =>
      have parts := List.pairwise_cons.mp ascending
      simp only [Record.insert]
      split
      · next same => exact List.pairwise_cons.mpr ⟨same ▸ parts.1, parts.2⟩
      · next different =>
          split
          · next less =>
              refine List.pairwise_cons.mpr ⟨?_, ascending⟩
              intro other member
              rcases List.mem_cons.mp member with equal | member
              · exact equal ▸ less
              · exact String.lt_trans less (parts.1 other member)
          · next greater =>
              refine List.pairwise_cons.mpr ⟨?_, induction parts.2⟩
              intro other member
              rcases (mem_keys_insert rest key value other).mp member with equal | member
              · exact equal ▸ lt_of_not_lt different greater
              · exact parts.1 other member

end Record

end StreamQuery
