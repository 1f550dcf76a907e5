import StreamQuery.Proofs.Aggregate.GroupBy
namespace StreamQuery

/-! Duplicates are dropped in three ways: row by row, as further records of a group, and as operands
of a count. What remains is in all of them the first of every kind. -/

/-- The entries that are like none before them, where some have been seen already. -/
def unseen (alike : α → α → Bool) : List α → List α → List α
  | _, [] => []
  | seen, entry :: rest =>
      if seen.any (alike entry) then unseen alike seen rest
      else entry :: unseen alike (entry :: seen) rest

/-- The first entries of every value. Numbers of several types can be one value. -/
def firstsBy (value : α → Value) (entries : List α) : List α :=
  unseen (fun first second => (value first).normalized.equals (value second).normalized) [] entries

theorem eraseDupsBy_loop (alike : α → α → Bool) (entries seen : List α) :
    List.eraseDupsBy.loop alike entries seen = seen.reverse ++ unseen alike seen entries := by
  induction entries generalizing seen with
  | nil => exact (List.append_nil _).symm
  | cons entry entries induction =>
      simp only [List.eraseDupsBy.loop, unseen]
      cases known : seen.any (alike entry) with
      | true => exact induction seen
      | false => simpa using induction (entry :: seen)

theorem eraseDupsBy_eq_unseen (alike : α → α → Bool) (entries : List α) :
    entries.eraseDupsBy alike = unseen alike [] entries :=
  eraseDupsBy_loop alike entries []

theorem unseen_map (alike : β → β → Bool) (transform : α → β) (seen entries : List α) :
    unseen alike (seen.map transform) (entries.map transform) =
      (unseen (fun first second => alike (transform first) (transform second)) seen entries).map
        transform := by
  induction entries generalizing seen with
  | nil => rfl
  | cons entry entries induction =>
      simp only [List.map_cons, unseen, List.any_map, Function.comp_def]
      split
      · exact induction seen
      · exact congrArg (List.cons _) (induction (entry :: seen))

theorem unseen_congr (alike : α → α → Bool) {seen others : List α}
    (same : ∀ entry, entry ∈ seen ↔ entry ∈ others) (entries : List α) :
    unseen alike seen entries = unseen alike others entries := by
  induction entries generalizing seen others with
  | nil => rfl
  | cons entry entries induction =>
      have known : seen.any (alike entry) = others.any (alike entry) := by
        rw [Bool.eq_iff_iff, List.any_eq_true, List.any_eq_true]
        simp only [same]
      have more : ∀ next, next ∈ entry :: seen ↔ next ∈ entry :: others := by
        simp only [List.mem_cons, same, implies_true]
      simp only [unseen, known, induction same, induction more]

theorem unseen_congr_alike {alike similar : α → α → Bool} {seen entries : List α}
    (same : ∀ first ∈ entries, ∀ second ∈ seen ++ entries,
      alike first second = similar first second) :
    unseen alike seen entries = unseen similar seen entries := by
  induction entries generalizing seen with
  | nil => rfl
  | cons entry entries induction =>
      have parts := List.forall_mem_cons.mp same
      have known : seen.any (alike entry) = seen.any (similar entry) := by
        rw [Bool.eq_iff_iff, List.any_eq_true, List.any_eq_true]
        refine exists_congr fun other => and_congr_right fun member => ?_
        rw [parts.1 other (List.mem_append_left _ member)]
      have later (first : α) (member : first ∈ entries) (second : α)
          (among : second ∈ (entry :: seen) ++ entries) :
          alike first second = similar first second :=
        parts.2 first member second (by simp at among ⊢; tauto)
      have skipped (first : α) (member : first ∈ entries) (second : α)
          (among : second ∈ seen ++ entries) : alike first second = similar first second :=
        later first member second (List.mem_cons_of_mem entry among)
      simp only [unseen, known, induction later, induction skipped]

theorem unseen_sublist (alike : α → α → Bool) (seen entries : List α) :
    (unseen alike seen entries).Sublist entries := by
  induction entries generalizing seen with
  | nil => exact .slnil
  | cons entry entries induction =>
      simp only [unseen]
      split
      · exact (induction seen).cons entry
      · exact (induction _).cons_cons entry

theorem unseen_of_alike {alike : α → α → Bool} {first : α} {entries : List α}
    (all : ∀ entry ∈ entries, alike entry first) : unseen alike [first] entries = [] := by
  induction entries with
  | nil => rfl
  | cons entry entries induction =>
      have parts := List.forall_mem_cons.mp all
      simp only [unseen, List.any_cons, parts.1, Bool.true_or, if_true]
      exact induction parts.2

theorem firstsBy_map (value : β → Value) (transform : α → β) (entries : List α) :
    firstsBy value (entries.map transform) =
      (firstsBy (fun entry => value (transform entry)) entries).map transform :=
  unseen_map _ transform [] entries

/-! Groups without aggregates. -/

namespace GroupTable

variable {additions : List Addition}

theorem finish_addAll_keys (additions : List Addition) :
    (addAll [] none additions).finish =
      (Addition.firsts additions).map fun addition => ⟨addition.row, []⟩ := by
  have groups : (addAll [] none additions).Groups [] additions
      (Addition.within none (Addition.firsts additions)) := .addAll fun _ _ => rfl
  have rows : (Addition.firsts additions).mapM (Addition.groupRow [] additions) =
      .ok ((Addition.firsts additions).map fun addition => ⟨addition.row, []⟩) :=
    mapM_ok_of_forall₂ (List.forall₂_map_right_iff.mpr (List.forall₂_same.mpr fun _ _ => rfl))
  exact Except.ok.inj (groups.mapM_groupRow.symm.trans rows)

end GroupTable

/-! Counts of distinct operands. -/

namespace Accumulator

theorem foldl_addDistinct (seen values : List Value) :
    values.foldl addDistinct seen = seen ++ unseen Value.equals seen values := by
  induction values generalizing seen with
  | nil => exact (List.append_nil _).symm
  | cons value values induction =>
      simp only [List.foldl_cons, unseen, addDistinct]
      split
      · exact induction seen
      · have order : ∀ entry, entry ∈ seen ++ [value] ↔ entry ∈ value :: seen := by
          simp [or_comm]
        rw [induction, unseen_congr _ order, List.append_assoc, List.singleton_append]

theorem foldlM_countDistinct (seen operands : List Value) :
    operands.foldlM update (.countDistinct seen) = .ok (.countDistinct
      (((operands.filter (!·.isNull)).map Value.normalized).foldl addDistinct seen)) := by
  induction operands generalizing seen with
  | nil => rfl
  | cons operand operands induction =>
      rw [List.foldlM_cons]
      cases operand with
      | null => exact induction seen
      | _ => exact induction _

theorem finish_countDistinct (operands : List Value) :
    finish (.countDistinct (((operands.filter (!·.isNull)).map Value.normalized).foldl addDistinct
        [])) =
      .int64 (Int64.ofNat (firstsBy id (operands.filter (!·.isNull))).length) := by
  rw [foldl_addDistinct, List.nil_append, finish]
  have mapped := unseen_map Value.equals Value.normalized [] (operands.filter (!·.isNull))
  rw [List.map_nil] at mapped
  rw [mapped, List.length_map]
  rfl

end Accumulator

theorem Aggregation.fold_countDistinct (place : Nat) (additions : List Addition) :
    countDistinct.fold place additions = .ok (.countDistinct
      ((((additions.filterMap (·.operands[place]?)).filter (!·.isNull)).map
        Value.normalized).foldl Accumulator.addDistinct [])) :=
  Accumulator.foldlM_countDistinct [] _

namespace GroupTable

theorem firsts_of_keyless {first : Addition} {rest : List Addition}
    (keyless : ∀ addition ∈ first :: rest, addition.key = []) :
    Addition.firsts (first :: rest) = [first] := by
  have parts := List.forall_mem_cons.mp keyless
  rw [Addition.firsts, eraseDupsBy_eq_unseen, unseen, unseen_of_alike]
  · rfl
  · intro addition member
    rw [Addition.sameKey, parts.1, parts.2 addition member]
    rfl

theorem finish_addAll_countDistinct {first : Addition} {rest : List Addition}
    (keyless : ∀ addition ∈ first :: rest, addition.key = [])
    (accepted : ∀ addition ∈ first :: rest,
      Grouping.checkOperands [.countDistinct] addition.operands = .ok ()) :
    (addAll [.countDistinct] none (first :: rest)).finish =
      [⟨first.row, [.int64 (Int64.ofNat (firstsBy id
        (((first :: rest).filterMap (·.operands[0]?)).filter (!·.isNull))).length)]⟩] := by
  have groups : (addAll [.countDistinct] none (first :: rest)).Groups [.countDistinct]
      (first :: rest) (Addition.within none (Addition.firsts (first :: rest))) := .addAll accepted
  have all : (first :: rest).filter first.sameKey = first :: rest := by
    refine List.filter_eq_self.mpr fun addition member => ?_
    rw [Addition.sameKey, keyless addition member, keyless first List.mem_cons_self]
    rfl
  have rows := groups.mapM_groupRow
  rw [Addition.within, firsts_of_keyless keyless] at rows
  refine Except.ok.inj (rows.symm.trans ?_)
  have row : Addition.groupRow [.countDistinct] (first :: rest) first = .ok ⟨first.row, [.int64
      (Int64.ofNat (firstsBy id
        (((first :: rest).filterMap (·.operands[0]?)).filter (!·.isNull))).length)]⟩ := by
    have accumulators : [Aggregation.countDistinct].zipIdx.mapM
        (fun part => part.1.fold part.2 (first :: rest)) = .ok [_] :=
      mapM_ok_of_forall₂ (.cons (Aggregation.fold_countDistinct 0 (first :: rest)) .nil)
    rw [Addition.groupRow, all, accumulators, ← Accumulator.finish_countDistinct]
    rfl
  exact mapM_ok_of_forall₂ (.cons row .nil)

end GroupTable

end StreamQuery
