import StreamQuery.Aggregate.GroupTable
import StreamQuery.Proofs.Value.Hash
namespace StreamQuery

/-! The groups of a table and the index of their keys are kept side by side. The index finds every
key in the slot of its group, whatever is added to the table. -/

namespace SlotIndex

/-! An index finds the slot that was inserted last under a key. Equal keys have one chain, so the
entry is there in front, and it is passed over for every other key. -/

variable {index : SlotIndex}

theorem chainOf_lt (index : SlotIndex) (key : List Value) :
    index.chainOf key < index.chains.length :=
  Nat.mod_lt _ index.nonempty

theorem chainOf_insert (index : SlotIndex) (key wanted : List Value) (slot : Nat) :
    (index.insert key slot).chainOf wanted = index.chainOf wanted := by
  rw [chainOf, chainOf, insert, List.length_modify]

theorem chainOf_of_equalItems {key other : List Value} (equal : Value.equalItems key other) :
    index.chainOf key = index.chainOf other := by
  rw [chainOf, chainOf, Value.keyHash_of_equalItems equal]

theorem find?_empty (key : List Value) : empty.find? key = none := by
  have chain : empty.chains.getD (empty.chainOf key) [] = [] := by
    have least : empty.chainOf key < (List.replicate width ([] : List (List Value × Nat))).length :=
      empty.chainOf_lt key
    rw [List.getD_eq_getElem?_getD, show empty.chains = List.replicate width [] from rfl,
      List.getElem?_eq_getElem least, List.getElem_replicate, Option.getD_some]
  rw [find?, chain]
  rfl

theorem find?_insert (index : SlotIndex) (key : List Value) (slot : Nat) (wanted : List Value) :
    (index.insert key slot).find? wanted =
      if Value.equalItems key wanted then some slot else index.find? wanted := by
  have least := index.chainOf_lt wanted
  rw [find?, chainOf_insert, insert, List.getD_eq_getElem?_getD, List.getElem?_modify]
  by_cases equal : Value.equalItems key wanted
  · rw [if_pos equal, chainOf_of_equalItems equal, List.getElem?_eq_getElem least]
    simp [equal]
  · rw [if_neg equal, find?, List.getD_eq_getElem?_getD, List.getElem?_eq_getElem least]
    by_cases shared : index.chainOf key = index.chainOf wanted
    · simp [shared, equal]
    · simp [shared]

end SlotIndex

namespace GroupTable

theorem admits_ok_iff {table : GroupTable} {maxGroups : Option Nat} {key : List Value} :
    table.admits maxGroups key = .ok () ↔
      table.contains key ∨ ∀ limit ∈ maxGroups, table.size < limit := by
  cases maxGroups with
  | none => simp [admits]
  | some limit => simp [admits, Classical.or_iff_not_imp_left]

/-- The keys of the groups, by their slots. No two of them are equal, and the index finds each in its
slot and no other key. -/
structure Keyed (keys : List (List Value)) (table : GroupTable) : Prop where
  length_eq : keys.length = table.groups.length
  distinct : keys.Pairwise fun key other => ¬Value.equalItems key other
  find?_eq : ∀ key, table.index.find? key = keys.findIdx? (Value.equalItems · key)

namespace Keyed

variable {keys : List (List Value)} {table : GroupTable} {aggregations : List Aggregation}
  {maxGroups : Option Nat} {key : List Value} {sample : Value} {operands : List Value} {slot : Nat}

theorem empty : GroupTable.empty.Keyed [] where
  length_eq := rfl
  distinct := .nil
  find?_eq := SlotIndex.find?_empty

theorem contains_iff (keyed : table.Keyed keys) :
    table.contains key ↔ ∃ held ∈ keys, Value.equalItems held key := by
  rw [contains, keyed.find?_eq, List.findIdx?_isSome, List.any_eq_true]

/-- Slots and keys are in bijection: in every slot is one key, and it is in no other. -/
theorem find?_eq_some_iff (keyed : table.Keyed keys) :
    table.index.find? key = some slot ↔
      ∃ held, keys[slot]? = some held ∧ Value.equalItems held key := by
  rw [keyed.find?_eq, List.findIdx?_eq_some_iff_getElem]
  constructor
  · rintro ⟨least, equal, _⟩
    exact ⟨keys[slot], List.getElem?_eq_getElem least, equal⟩
  · rintro ⟨held, found, equal⟩
    rcases List.getElem?_eq_some_iff.mp found with ⟨least, rfl⟩
    refine ⟨least, equal, fun earlier before same => ?_⟩
    have alike := Value.equalItems_trans _ _ _ same (Value.equalItems_symm _ _ equal)
    exact List.pairwise_iff_getElem.mp keyed.distinct earlier slot _ least before alike

theorem lt_of_find? (keyed : table.Keyed keys) (found : table.index.find? key = some slot) :
    slot < table.groups.length := by
  rcases keyed.find?_eq_some_iff.mp found with ⟨held, among, _⟩
  exact keyed.length_eq ▸ (List.getElem?_eq_some_iff.mp among).1

theorem find?_of_equalItems (keyed : table.Keyed keys) {other : List Value}
    (equal : Value.equalItems key other) : table.index.find? key = table.index.find? other := by
  have same (held : List Value) : Value.equalItems held key = Value.equalItems held other := by
    rw [Bool.eq_iff_iff]
    exact ⟨fun first => Value.equalItems_trans _ _ _ first equal,
      fun second => Value.equalItems_trans _ _ _ second (Value.equalItems_symm _ _ equal)⟩
  rw [keyed.find?_eq, keyed.find?_eq]
  simp only [same]

theorem push (keyed : table.Keyed keys) (new : table.index.find? key = none) :
    (table.push aggregations key sample).Keyed (keys ++ [key]) where
  length_eq := by simp [GroupTable.push, keyed.length_eq]
  distinct := by
    rw [keyed.find?_eq, List.findIdx?_eq_none_iff] at new
    refine List.pairwise_append.mpr ⟨keyed.distinct, List.pairwise_singleton _ _, ?_⟩
    intro held member other only
    rw [List.mem_singleton.mp only, new held member]
    exact Bool.false_ne_true
  find?_eq wanted := by
    rw [keyed.find?_eq, List.findIdx?_eq_none_iff] at new
    rw [GroupTable.push, SlotIndex.find?_insert, keyed.find?_eq, List.findIdx?_append,
      ← keyed.length_eq]
    by_cases equal : Value.equalItems key wanted
    · have others : keys.findIdx? (Value.equalItems · wanted) = none := by
        refine List.findIdx?_eq_none_iff.mpr fun held member => Bool.eq_false_iff.mpr fun same => ?_
        have known := Value.equalItems_trans held wanted key same
          (Value.equalItems_symm _ _ equal)
        exact Bool.false_ne_true ((new held member).symm.trans known)
      simp [equal, others]
    · simp [equal]

theorem find?_push (table : GroupTable) (aggregations : List Aggregation) (key : List Value)
    (sample : Value) :
    (table.push aggregations key sample).index.find? key = some table.groups.length := by
  rw [GroupTable.push, SlotIndex.find?_insert, if_pos (Value.equalItems_self key)]

theorem find?_push_of_some (keyed : table.Keyed keys) (new : table.index.find? key = none)
    {other : List Value} (found : table.index.find? other = some slot) :
    (table.push aggregations key sample).index.find? other = some slot := by
  have different : ¬Value.equalItems key other := fun equal =>
    nomatch new.symm.trans ((keyed.find?_of_equalItems equal).trans found)
  rw [GroupTable.push, SlotIndex.find?_insert, if_neg different, found]

theorem updateSlot (keyed : table.Keyed keys) : (table.updateSlot slot operands).1.Keyed keys := by
  unfold GroupTable.updateSlot
  split
  · exact ⟨by simp [keyed.length_eq], keyed.distinct, keyed.find?_eq⟩
  · exact keyed

theorem update (keyed : table.Keyed keys) :
    (table.update aggregations maxGroups key sample operands).1.Keyed
      (if ¬table.contains key ∧ ∀ limit ∈ maxGroups, table.size < limit then keys ++ [key]
        else keys) := by
  unfold GroupTable.update
  cases found : table.index.find? key with
  | some slot =>
      have known : table.contains key := by rw [contains, found, Option.isSome_some]
      rw [if_neg fun both => both.1 known]
      exact keyed.updateSlot
  | none =>
      have new : ¬table.contains key := by simp [contains, found]
      cases admitted : table.admits maxGroups key with
      | ok =>
          have room := (admits_ok_iff.mp admitted).resolve_left new
          rw [if_pos ⟨new, room⟩]
          exact (keyed.push found).updateSlot
      | error error =>
          have full : ¬∀ limit ∈ maxGroups, table.size < limit := fun room =>
            nomatch (admits_ok_iff.mpr (.inr room)).symm.trans admitted
          rw [if_neg fun both => full both.2]
          exact keyed

end Keyed

end GroupTable

end StreamQuery
