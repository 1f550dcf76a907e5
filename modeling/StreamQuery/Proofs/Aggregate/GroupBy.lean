import Mathlib.Data.List.Induction
import StreamQuery.Proofs.Aggregate.Acceptance
import StreamQuery.Proofs.Aggregate.Slots
import StreamQuery.Proofs.Results
import StreamQuery.Window.Grouping
namespace StreamQuery

/-! A table keeps the additions that are made to it grouped by their keys. What it comes to is told
without it: the first addition of every key opens a group, and the accumulators of the group take
the operands of all additions of that key. -/

structure Addition where
  key : List Value
  row : Value
  /-- The operands for the aggregates, by their places. -/
  operands : List Value

def Aggregation.fold (aggregation : Aggregation) (place : Nat) (additions : List Addition) :
    Except QueryError Accumulator :=
  (additions.filterMap (·.operands[place]?)).foldlM Accumulator.update (.start aggregation)

namespace Addition

def sameKey (first second : Addition) : Bool :=
  Value.equalItems first.key second.key

def firsts (additions : List Addition) : List Addition :=
  additions.eraseDupsBy sameKey

/-- The row of the additions that have the key of the first one. -/
def groupRow (aggregations : List Aggregation) (additions : List Addition) (first : Addition) :
    Except QueryError GroupRow :=
  (aggregations.zipIdx.mapM fun (part : Aggregation × Nat) =>
    part.1.fold part.2 (additions.filter first.sameKey)).map fun accumulators =>
      ⟨first.row, accumulators.map Accumulator.finish⟩

def groupBy (aggregations : List Aggregation) (additions : List Addition) :
    Except QueryError (List GroupRow) :=
  (firsts additions).mapM (groupRow aggregations additions)

variable {first second next : Addition} {additions : List Addition}

theorem sameKey_self (addition : Addition) : addition.sameKey addition :=
  Value.equalItems_self addition.key

theorem sameKey_symm (same : first.sameKey second) : second.sameKey first :=
  Value.equalItems_symm _ _ same

theorem sameKey_trans (same : first.sameKey second) (other : second.sameKey next) :
    first.sameKey next :=
  Value.equalItems_trans _ _ _ same other

/-! One addition more is a first one if none before it has its key. -/

theorem firsts_concat (additions : List Addition) (next : Addition) :
    firsts (additions ++ [next]) =
      if (firsts additions).any next.sameKey then firsts additions
      else firsts additions ++ [next] := by
  suffices general : ∀ found, List.eraseDupsBy.loop sameKey (additions ++ [next]) found =
      if (List.eraseDupsBy.loop sameKey additions found).any next.sameKey
      then List.eraseDupsBy.loop sameKey additions found
      else List.eraseDupsBy.loop sameKey additions found ++ [next] from general []
  induction additions with
  | nil =>
      intro found
      simp only [List.nil_append, List.eraseDupsBy.loop, List.any_reverse]
      cases found.any next.sameKey <;> simp
  | cons addition additions induction =>
      intro found
      cases known : found.any addition.sameKey with
      | true => simpa only [List.cons_append, List.eraseDupsBy.loop, known] using induction found
      | false =>
          simpa only [List.cons_append, List.eraseDupsBy.loop, known] using
            induction (addition :: found)

theorem firsts_of_any (known : (firsts additions).any next.sameKey) :
    firsts (additions ++ [next]) = firsts additions := by
  rw [firsts_concat, if_pos known]

theorem firsts_of_not_any (new : ¬(firsts additions).any next.sameKey) :
    firsts (additions ++ [next]) = firsts additions ++ [next] := by
  rw [firsts_concat, if_neg new]

theorem exists_first (member : first ∈ additions) :
    ∃ leader ∈ firsts additions, leader.sameKey first := by
  induction additions using List.reverseRecOn with
  | nil => cases member
  | append_singleton additions next induction =>
      by_cases known : (firsts additions).any next.sameKey
      · rw [firsts_of_any known]
        rcases List.mem_append.mp member with before | last
        · exact induction before
        · rcases List.any_eq_true.mp known with ⟨leader, among, same⟩
          rw [List.mem_singleton.mp last]
          exact ⟨leader, among, sameKey_symm same⟩
      · rw [firsts_of_not_any known]
        rcases List.mem_append.mp member with before | last
        · rcases induction before with ⟨leader, among, same⟩
          exact ⟨leader, List.mem_append_left _ among, same⟩
        · exact ⟨first, List.mem_append_right _ last, sameKey_self first⟩

theorem filter_of_not_any (new : ¬(firsts additions).any next.sameKey) :
    additions.filter next.sameKey = [] := by
  refine List.filter_eq_nil_iff.mpr fun addition member same => new ?_
  rcases exists_first member with ⟨leader, among, equal⟩
  exact List.any_eq_true.mpr ⟨leader, among, sameKey_trans same (sameKey_symm equal)⟩

end Addition

/-! Operands that pass the check are taken by the accumulators of the aggregates. -/

namespace Aggregation

variable {aggregation : Aggregation} {place : Nat} {additions : List Addition} {next : Addition}

theorem aggregation_of_fold {accumulator : Accumulator}
    (folds : aggregation.fold place additions = .ok accumulator) :
    accumulator.aggregation = aggregation := by
  have kept : Ensures (aggregation.fold place additions) (·.aggregation = aggregation) :=
    ensures_foldlM
      (fun operand _ accumulator same value update =>
        (accumulator.ensures_update operand value update).trans same)
      (Accumulator.start_aggregation aggregation)
  exact kept accumulator folds

theorem fold_concat (aggregation : Aggregation) (place : Nat) (additions : List Addition)
    (next : Addition) : aggregation.fold place (additions ++ [next]) =
      aggregation.fold place additions >>= next.operands[place]?.toList.foldlM Accumulator.update := by
  have last : [next].filterMap (·.operands[place]?) = next.operands[place]?.toList := by
    cases found : next.operands[place]? <;> simp [found]
  rw [fold, List.filterMap_append, List.foldlM_append, last]
  rfl

end Aggregation

/-- The accumulators, the first of which stands at this place, are those of the additions. -/
def Accumulator.FoldFrom (place : Nat) (aggregations : List Aggregation)
    (additions : List Addition) (accumulators : List Accumulator) : Prop :=
  List.Forall₂ (fun (part : Aggregation × Nat) accumulator =>
    part.1.fold part.2 additions = .ok accumulator) (aggregations.zipIdx place) accumulators

namespace GroupTable

variable {aggregations : List Aggregation} {additions : List Addition} {next : Addition}

theorem updateAll_foldFrom {place : Nat} {accumulators : List Accumulator}
    (folds : Accumulator.FoldFrom place aggregations additions accumulators)
    (accepted : Grouping.checkOperands aggregations (next.operands.drop place) = .ok ()) :
    ∃ updated, updateAll accumulators (next.operands.drop place) = (updated, .ok ()) ∧
      Accumulator.FoldFrom place aggregations (additions ++ [next]) updated := by
  induction aggregations generalizing place accumulators with
  | nil =>
      cases folds
      exact ⟨[], by simp only [updateAll], .nil⟩
  | cons aggregation aggregations induction =>
      cases folds with
      | @cons _ accumulator _ accumulators first rest =>
          have concat := aggregation.fold_concat place additions next
          rw [show aggregation.fold place additions = .ok accumulator from first] at concat
          rw [List.drop_eq_getElem?_toList_append] at accepted ⊢
          cases given : next.operands[place]? with
          | none =>
              have nothing : next.operands.drop (place + 1) = [] :=
                List.drop_eq_nil_of_le (Nat.le_succ_of_le (List.getElem?_eq_none_iff.mp given))
              rw [given] at concat
              rcases induction rest (by rw [nothing]; cases aggregations <;> rfl) with
                ⟨updated, updates, folds⟩
              rw [nothing] at updates ⊢
              have same : accumulators = updated := by
                cases accumulators <;> exact (Prod.mk.inj updates).1
              subst same
              exact ⟨accumulator :: accumulators, rfl, .cons concat folds⟩
          | some operand =>
              rw [given] at accepted concat
              have kind := Aggregation.aggregation_of_fold first
              have accepts := accumulator.accepts_update operand
              rw [Accumulator.check, kind] at accepts
              change (aggregation.check operand >>= fun _ => _) = _ at accepted
              cases check : aggregation.check operand with
              | error error =>
                  rw [check] at accepted
                  cases accepted
              | ok =>
                  rw [check] at accepted accepts
                  rcases accepts with ⟨taken, update, _⟩
                  rcases induction rest accepted with ⟨updated, updates, folds⟩
                  refine ⟨taken :: updated, ?_, .cons (concat.trans ?_) folds⟩
                  · simp only [Option.toList_some, List.singleton_append, updateAll, update, updates]
                  · exact (bind_pure _).trans update

end GroupTable

namespace Addition

variable {aggregations : List Aggregation} {additions leaders : List Addition}
  {first next : Addition} {group : Group} {groups : List Group} {slot : Nat}

structure Makes (aggregations : List Aggregation) (additions : List Addition) (first : Addition)
    (group : Group) : Prop where
  sample : group.sample = first.row
  folds : Accumulator.FoldFrom 0 aggregations (additions.filter first.sameKey) group.accumulators

theorem Makes.groupRow_eq (makes : Makes aggregations additions first group) :
    groupRow aggregations additions first = .ok group.finish := by
  rw [groupRow, mapM_ok_of_forall₂ makes.folds, Group.finish, makes.sample]
  rfl

theorem Makes.of_not_sameKey (makes : Makes aggregations additions first group)
    (other : ¬first.sameKey next) : Makes aggregations (additions ++ [next]) first group where
  sample := makes.sample
  folds := by
    have none : [next].filter first.sameKey = [] := by simpa using other
    rw [List.filter_append, none, List.append_nil]
    exact makes.folds

theorem Makes.of_sameKey (makes : Makes aggregations additions first group)
    (same : first.sameKey next)
    (accepted : Grouping.checkOperands aggregations next.operands = .ok ()) :
    ∃ accumulators, GroupTable.updateAll group.accumulators next.operands = (accumulators, .ok ()) ∧
      Makes aggregations (additions ++ [next]) first { group with accumulators } := by
  have only : [next].filter first.sameKey = [next] := by simpa using same
  rcases GroupTable.updateAll_foldFrom makes.folds accepted with ⟨accumulators, updates, folds⟩
  refine ⟨accumulators, updates, makes.sample, ?_⟩
  rw [List.filter_append, only]
  exact folds

theorem Makes.of_new (new : ¬(firsts additions).any next.sameKey)
    (accepted : Grouping.checkOperands aggregations next.operands = .ok ()) :
    ∃ accumulators, GroupTable.updateAll (aggregations.map Accumulator.start) next.operands =
        (accumulators, .ok ()) ∧
      Makes aggregations (additions ++ [next]) next ⟨next.row, accumulators⟩ := by
  have started : Accumulator.FoldFrom 0 aggregations [] (aggregations.map Accumulator.start) := by
    rw [← List.zipIdx_map_fst 0 aggregations, List.map_map, Accumulator.FoldFrom,
      List.zipIdx_map_fst, List.forall₂_map_right_iff, List.forall₂_same]
    exact fun _ _ => rfl
  have only : [next].filter next.sameKey = [next] := by simpa using sameKey_self next
  rcases GroupTable.updateAll_foldFrom started accepted with ⟨accumulators, updates, folds⟩
  refine ⟨accumulators, updates, rfl, ?_⟩
  rw [List.filter_append, filter_of_not_any new, only]
  exact folds

def MakeAll (aggregations : List Aggregation) (additions leaders : List Addition)
    (groups : List Group) : Prop :=
  List.Forall₂ (Makes aggregations additions) leaders groups

theorem MakeAll.of_not_any (made : MakeAll aggregations additions leaders groups)
    (others : ¬leaders.any next.sameKey) :
    MakeAll aggregations (additions ++ [next]) leaders groups := by
  induction made with
  | nil => exact .nil
  | cons first _ induction =>
      simp only [List.any_cons, Bool.or_eq_true, not_or] at others
      exact .cons (first.of_not_sameKey (mt sameKey_symm others.1)) (induction others.2)

theorem MakeAll.set (made : MakeAll aggregations additions leaders groups)
    (distinct : leaders.Pairwise fun first second => ¬first.sameKey second)
    (found : leaders.findIdx? (·.sameKey next) = some slot)
    (accepted : Grouping.checkOperands aggregations next.operands = .ok ()) :
    ∃ group accumulators, groups[slot]? = some group ∧
      GroupTable.updateAll group.accumulators next.operands = (accumulators, .ok ()) ∧
      MakeAll aggregations (additions ++ [next]) leaders
        (groups.set slot { group with accumulators }) := by
  induction made generalizing slot with
  | nil => cases found
  | @cons leader group leaders groups first rest induction =>
      have parts := List.pairwise_cons.mp distinct
      rw [List.findIdx?_cons] at found
      by_cases same : leader.sameKey next
      · rw [if_pos same] at found
        cases found
        have others : ¬leaders.any next.sameKey := by
          intro known
          rcases List.any_eq_true.mp known with ⟨other, member, equal⟩
          exact parts.1 other member (sameKey_trans same equal)
        rcases first.of_sameKey same accepted with ⟨accumulators, updates, makes⟩
        exact ⟨group, accumulators, rfl, updates, .cons makes (MakeAll.of_not_any rest others)⟩
      · rw [if_neg same] at found
        rcases Option.map_eq_some_iff.mp found with ⟨slot, later, rfl⟩
        rcases induction parts.2 later with ⟨held, accumulators, present, updates, makes⟩
        exact ⟨held, accumulators, present, updates, .cons (first.of_not_sameKey same) makes⟩

end Addition

/-! A limit leaves the groups that come first. -/

namespace Addition

/-- Those of the first additions that are no more than the limit. -/
def within (maxGroups : Option Nat) (leaders : List Addition) : List Addition :=
  match maxGroups with
  | none => leaders
  | some limit => leaders.take limit

variable {maxGroups : Option Nat} {leaders : List Addition} {next : Addition}

theorem within_sublist (maxGroups : Option Nat) (leaders : List Addition) :
    (within maxGroups leaders).Sublist leaders := by
  cases maxGroups with
  | none => exact .refl leaders
  | some limit => exact List.take_sublist limit leaders

theorem length_within_le (leaders : List Addition) (limit : Nat) :
    (within (some limit) leaders).length ≤ limit :=
  List.length_take_le limit leaders

theorem within_of_room (leaders : List Addition) (next : Addition)
    (room : ∀ limit ∈ maxGroups, (within maxGroups leaders).length < limit) :
    within maxGroups leaders = leaders ∧
      within maxGroups (leaders ++ [next]) = leaders ++ [next] := by
  cases maxGroups with
  | none => exact ⟨rfl, rfl⟩
  | some limit =>
      have few := room limit rfl
      simp only [within, List.length_take] at few
      have all : leaders.length < limit := by omega
      exact ⟨List.take_of_length_le (Nat.le_of_lt all),
        List.take_of_length_le (by simpa using Nat.succ_le_of_lt all)⟩

theorem within_of_full (leaders : List Addition) (next : Addition)
    (full : ¬∀ limit ∈ maxGroups, (within maxGroups leaders).length < limit) :
    within maxGroups (leaders ++ [next]) = within maxGroups leaders := by
  cases maxGroups with
  | none => exact absurd (fun _ none => nomatch none) full
  | some limit =>
      have many : ¬(leaders.take limit).length < limit := fun few => full fun _ same =>
        Option.some.inj same ▸ few
      rw [List.length_take] at many
      exact List.take_append_of_le_length (by omega)

theorem within_firsts_concat (maxGroups : Option Nat) (additions : List Addition)
    (next : Addition) : within maxGroups (firsts (additions ++ [next])) =
      if ¬(within maxGroups (firsts additions)).any next.sameKey ∧
          ∀ limit ∈ maxGroups, (within maxGroups (firsts additions)).length < limit
      then within maxGroups (firsts additions) ++ [next]
      else within maxGroups (firsts additions) := by
  by_cases room : ∀ limit ∈ maxGroups, (within maxGroups (firsts additions)).length < limit
  · have all := within_of_room (firsts additions) next room
    by_cases known : (firsts additions).any next.sameKey
    · rw [firsts_of_any known, if_neg fun both => both.1 (all.1.symm ▸ known)]
    · rw [firsts_of_not_any known, all.2, all.1] 
      rw [if_pos ⟨known, all.1 ▸ room⟩]
  · rw [if_neg fun both => room both.2, firsts_concat]
    split
    · rfl
    · exact within_of_full (firsts additions) next room

end Addition

namespace GroupTable

open Addition

/-- The table after the additions. One that fails is passed over. -/
def addAll (aggregations : List Aggregation) (maxGroups : Option Nat)
    (additions : List Addition) : GroupTable :=
  additions.foldl (fun table next =>
    (table.update aggregations maxGroups next.key next.row next.operands).1) .empty

variable {aggregations : List Aggregation} {maxGroups : Option Nat}
  {additions leaders : List Addition} {table : GroupTable} {next : Addition}

theorem Keyed.contains_eq_any (keyed : table.Keyed (leaders.map Addition.key)) :
    table.contains next.key = leaders.any next.sameKey := by
  rw [Bool.eq_iff_iff, keyed.contains_iff, List.any_eq_true]
  constructor
  · rintro ⟨_, member, equal⟩
    rcases List.mem_map.mp member with ⟨leader, among, rfl⟩
    exact ⟨leader, among, sameKey_symm equal⟩
  · rintro ⟨leader, member, same⟩
    exact ⟨leader.key, List.mem_map_of_mem member, sameKey_symm same⟩

theorem Keyed.size_eq (keyed : table.Keyed (leaders.map Addition.key)) :
    table.size = leaders.length := by
  rw [size, ← keyed.length_eq, List.length_map]

/-- Whatever is added, the index finds the first additions within the limit by their keys, also if
operands are refused. -/
theorem Keyed.addAll (aggregations : List Aggregation) (maxGroups : Option Nat)
    (additions : List Addition) : (addAll aggregations maxGroups additions).Keyed
      ((within maxGroups (firsts additions)).map Addition.key) := by
  induction additions using List.reverseRecOn with
  | nil =>
      have none : within maxGroups (firsts []) = [] := List.sublist_nil.mp (within_sublist _ _)
      rw [none]
      exact .empty
  | append_singleton additions next induction =>
      rw [GroupTable.addAll, List.foldl_concat, ← GroupTable.addAll, within_firsts_concat,
        ← induction.contains_eq_any, ← induction.size_eq, apply_ite (List.map Addition.key),
        List.map_append]
      exact induction.update

/-- The table has the groups of these first additions, and finds them by their keys. -/
structure Groups (aggregations : List Aggregation) (additions leaders : List Addition)
    (table : GroupTable) : Prop where
  keyed : table.Keyed (leaders.map Addition.key)
  made : MakeAll aggregations additions leaders table.groups

theorem admits_of_full {key : List Value} (new : ¬table.contains key) :
    table.admits (some table.size) key = .error (.groupLimit table.size) := by
  simp [admits, new]

namespace Groups

theorem start : empty.Groups aggregations [] [] where
  keyed := .empty
  made := .nil

theorem size_le (groups : table.Groups aggregations additions (within maxGroups leaders)) :
    ∀ limit ∈ maxGroups, table.size ≤ limit := by
  rintro limit rfl
  rw [groups.keyed.size_eq]
  exact length_within_le _ limit

theorem join (groups : table.Groups aggregations additions leaders) (maxGroups : Option Nat)
    (known : table.contains next.key)
    (accepted : Grouping.checkOperands aggregations next.operands = .ok ()) :
    ∃ updated, table.update aggregations maxGroups next.key next.row next.operands =
        (updated, .ok ()) ∧ updated.Groups aggregations (additions ++ [next]) leaders := by
  rcases Option.isSome_iff_exists.mp known with ⟨slot, found⟩
  have place : leaders.findIdx? (·.sameKey next) = some slot := by
    rw [groups.keyed.find?_eq, List.findIdx?_map] at found
    exact found
  have distinct := List.pairwise_map.mp groups.keyed.distinct
  rcases groups.made.set distinct place accepted with
    ⟨group, accumulators, present, updates, made⟩
  have result : table.update aggregations maxGroups next.key next.row next.operands =
      ({ table with groups := table.groups.set slot { group with accumulators } }, .ok ()) := by
    simp only [update, found, updateSlot, present, updates]
  have keyed : (table.update aggregations maxGroups next.key next.row next.operands).1.Keyed _ :=
    groups.keyed.update
  rw [result, if_neg fun both => both.1 known] at keyed
  exact ⟨_, result, keyed, made⟩

theorem extend (groups : table.Groups aggregations additions leaders)
    (new : ¬table.contains next.key) (first : ¬(firsts additions).any next.sameKey)
    (room : ∀ limit ∈ maxGroups, table.size < limit)
    (accepted : Grouping.checkOperands aggregations next.operands = .ok ()) :
    ∃ updated, table.update aggregations maxGroups next.key next.row next.operands =
        (updated, .ok ()) ∧
      updated.Groups aggregations (additions ++ [next]) (leaders ++ [next]) := by
  have absent : table.index.find? next.key = none := by simpa [contains] using new
  have admitted : table.admits maxGroups next.key = .ok () := admits_ok_iff.mpr (.inr room)
  rcases Makes.of_new first accepted with ⟨accumulators, updates, makes⟩
  have opened : (table.push aggregations next.key next.row).groups[table.size]? =
      some ⟨next.row, aggregations.map Accumulator.start⟩ := List.getElem?_concat_length
  have result : table.update aggregations maxGroups next.key next.row next.operands =
      (⟨table.groups ++ [⟨next.row, accumulators⟩],
        table.index.insert next.key table.groups.length⟩, .ok ()) := by
    simp only [update, absent, admitted, updateSlot, opened, updates]
    simp [push, size]
  have keyed : (table.update aggregations maxGroups next.key next.row next.operands).1.Keyed _ :=
    groups.keyed.update
  rw [result, if_pos ⟨new, room⟩] at keyed
  refine ⟨_, result, by rwa [List.map_append], ?_⟩
  have before := groups.made.of_not_any (groups.keyed.contains_eq_any ▸ new)
  exact List.rel_append before (.cons makes .nil)

theorem pass (groups : table.Groups aggregations additions leaders)
    (new : ¬table.contains next.key) : table.Groups aggregations (additions ++ [next]) leaders where
  keyed := groups.keyed
  made := groups.made.of_not_any (groups.keyed.contains_eq_any ▸ new)

theorem mapM_groupRow (groups : table.Groups aggregations additions leaders) :
    leaders.mapM (groupRow aggregations additions) = .ok table.finish := by
  refine mapM_ok_of_forall₂ ?_
  rw [finish, List.forall₂_map_right_iff]
  exact groups.made.imp fun _ _ makes => makes.groupRow_eq

theorem of_update {updated : GroupTable}
    (groups : table.Groups aggregations additions (firsts additions))
    (accepted : Grouping.checkOperands aggregations next.operands = .ok ())
    (admitted : table.admits maxGroups next.key = .ok ())
    (updates : (table.update aggregations maxGroups next.key next.row next.operands).1 = updated) :
    updated.Groups aggregations (additions ++ [next]) (firsts (additions ++ [next])) := by
  by_cases known : table.contains next.key
  · rcases groups.join maxGroups known accepted with ⟨taken, result, grown⟩
    rw [result] at updates
    rw [firsts_of_any (groups.keyed.contains_eq_any ▸ known), ← updates]
    exact grown
  · have first := known
    rw [groups.keyed.contains_eq_any] at first
    have room := (admits_ok_iff.mp admitted).resolve_left known
    rcases groups.extend known first room accepted with ⟨taken, result, grown⟩
    rw [result] at updates
    rw [firsts_of_not_any first, ← updates]
    exact grown

/-- What an addition that every accumulator accepts comes to: it is taken, or the table is full and
has no group for it. -/
inductive Outcome (aggregations : List Aggregation) (maxGroups : Option Nat)
    (additions : List Addition) (next : Addition) (table : GroupTable) : Prop
  | taken (updated : GroupTable) :
      table.update aggregations maxGroups next.key next.row next.operands = (updated, .ok ()) →
      table.contains next.key ∨ (∀ limit ∈ maxGroups, table.size < limit) →
      updated.Groups aggregations (additions ++ [next])
        (within maxGroups (firsts (additions ++ [next]))) →
      Outcome aggregations maxGroups additions next table
  | full (limit : Nat) : maxGroups = some limit →
      table.update aggregations maxGroups next.key next.row next.operands =
        (table, .error (.groupLimit limit)) →
      ¬table.contains next.key → table.size = limit →
      table.Groups aggregations (additions ++ [next])
        (within maxGroups (firsts (additions ++ [next]))) →
      Outcome aggregations maxGroups additions next table

theorem outcome (groups : table.Groups aggregations additions (within maxGroups (firsts additions)))
    (accepted : Grouping.checkOperands aggregations next.operands = .ok ()) :
    Outcome aggregations maxGroups additions next table := by
  have grows := within_firsts_concat maxGroups additions next
  rw [← groups.keyed.contains_eq_any, ← groups.keyed.size_eq] at grows
  by_cases known : table.contains next.key
  · rw [if_neg fun both => both.1 known] at grows
    rcases groups.join maxGroups known accepted with ⟨updated, updates, grown⟩
    exact .taken updated updates (.inl known) (grows ▸ grown)
  · by_cases room : ∀ limit ∈ maxGroups, table.size < limit
    · rw [if_pos ⟨known, room⟩] at grows
      have all := within_of_room (firsts additions) next (groups.keyed.size_eq ▸ room)
      have first := known
      rw [groups.keyed.contains_eq_any, all.1] at first
      rcases groups.extend known first room accepted with ⟨updated, updates, grown⟩
      exact .taken updated updates (.inr room) (grows ▸ grown)
    · rw [if_neg fun both => room both.2] at grows
      simp only [not_forall, Nat.not_lt] at room
      rcases room with ⟨limit, bound, least⟩
      obtain rfl : table.size = limit := Nat.le_antisymm (groups.size_le limit bound) least
      obtain rfl : maxGroups = some table.size := bound
      have absent : table.index.find? next.key = none := by simpa [contains] using known
      refine .full table.size rfl ?_ known rfl (grows ▸ groups.pass known)
      simp only [update, absent, admits_of_full known]

/-- Additions that every accumulator accepts make their groups, up to the limit. -/
theorem addAll (accepted : ∀ addition ∈ additions,
      Grouping.checkOperands aggregations addition.operands = .ok ()) :
    (addAll aggregations maxGroups additions).Groups aggregations additions
      (within maxGroups (firsts additions)) := by
  induction additions using List.reverseRecOn with
  | nil =>
      have none : within maxGroups (firsts []) = [] := List.sublist_nil.mp (within_sublist _ _)
      rw [none]
      exact .start
  | append_singleton additions next induction =>
      have parts := List.forall_mem_append.mp accepted
      have last := List.forall_mem_singleton.mp parts.2
      rw [GroupTable.addAll, List.foldl_concat]
      cases (induction parts.1).outcome last with
      | taken updated updates _ groups =>
          rw [← GroupTable.addAll, updates]
          exact groups
      | full limit _ refused _ _ groups =>
          rw [← GroupTable.addAll, refused]
          exact groups

end Groups

/-- Without a limit a table groups the additions by their keys. With a limit it has the first of
these groups, an addition fails if its key is new and the table full, and then the table stays as it
is. The index and the groups stay in step all the time. -/
theorem addAll_eq_groupBy (accepted : ∀ addition ∈ additions,
      Grouping.checkOperands aggregations addition.operands = .ok ()) :
    ∃ rows, groupBy aggregations additions = .ok rows ∧
      (addAll aggregations none additions).finish = rows ∧
      (∀ limit, (addAll aggregations (some limit) additions).finish = rows.take limit) ∧
      ∀ maxGroups : Option Nat,
        let table := addAll aggregations maxGroups additions
        let keys := (within maxGroups (firsts additions)).map Addition.key
        table.Keyed keys ∧
          (∀ key slot, table.index.find? key = some slot ↔
            ∃ held, keys[slot]? = some held ∧ Value.equalItems held key) ∧
          (∀ limit ∈ maxGroups, table.size ≤ limit) ∧
          ∀ next : Addition, Grouping.checkOperands aggregations next.operands = .ok () →
            let outcome := table.update aggregations maxGroups next.key next.row next.operands
            (∀ error, outcome.2 = .error error ↔
              ∃ limit ∈ maxGroups, error = .groupLimit limit ∧ table.size = limit ∧
                ∀ key ∈ keys, Value.equalItems key next.key = false) ∧
              (outcome.2 ≠ .ok () → outcome.1 = table) := by
  have unlimited : (addAll aggregations none additions).Groups aggregations additions
      (within none (firsts additions)) := .addAll accepted
  refine ⟨_, unlimited.mapM_groupRow, rfl, ?_, ?_⟩
  · intro limit
    have limited : (addAll aggregations (some limit) additions).Groups aggregations additions
        (within (some limit) (firsts additions)) := .addAll accepted
    have first := mapM_ok_of_forall₂ (List.forall₂_take limit
      (forall₂_of_mapM_ok unlimited.mapM_groupRow))
    exact Except.ok.inj (limited.mapM_groupRow.symm.trans first)
  · intro maxGroups table keys
    have groups : table.Groups aggregations additions (within maxGroups (firsts additions)) :=
      .addAll accepted
    refine ⟨groups.keyed, fun _ _ => groups.keyed.find?_eq_some_iff, groups.size_le,
      fun next acceptedNext => ?_⟩
    have absent : (∀ key ∈ keys, Value.equalItems key next.key = false) ↔
        ¬table.contains next.key := by
      simp [groups.keyed.contains_iff, keys]
    intro outcome
    rw [absent]
    cases groups.outcome acceptedNext with
    | taken updated updates known _ =>
        simp only [outcome, updates, reduceCtorEq, false_iff, ne_eq, not_true, false_implies,
          and_true]
        rintro error ⟨limit, bound, _, full, new⟩
        rcases known with contains | room
        · exact new contains
        · exact Nat.ne_of_lt (room limit bound) full
    | full limit bound refused new full _ =>
        refine ⟨fun error => ?_, fun _ => congrArg Prod.fst refused⟩
        simp only [outcome, refused, Except.error.injEq]
        constructor
        · rintro rfl
          exact ⟨limit, bound, rfl, full, new⟩
        · rintro ⟨other, same, rfl, _, _⟩
          rw [Option.some.inj (bound.symm.trans same)]

/-- Three records under two keys. -/
theorem addAll_eq_groupBy_sums :
    let additions : List Addition :=
      [⟨[.int64 1], .string "a", [.int64 3]⟩, ⟨[.int64 2], .string "b", [.int64 4]⟩,
        ⟨[.int64 1], .string "c", [.int64 5]⟩]
    let rows : List GroupRow := [⟨.string "a", [.int64 8]⟩, ⟨.string "b", [.int64 4]⟩]
    (∀ addition ∈ additions, Grouping.checkOperands [.sum] addition.operands = .ok ()) ∧
      (addAll [.sum] none additions).finish = rows ∧
      (addAll [.sum] (some 1) additions).finish = rows.take 1 ∧
      (addAll [.sum] none additions).Keyed [[.int64 1], [.int64 2]] := by
  intro additions rows
  have accepted : ∀ addition ∈ additions,
      Grouping.checkOperands [.sum] addition.operands = .ok () := by
    simp only [additions, List.forall_mem_cons]
    exact ⟨rfl, rfl, rfl, List.forall_mem_nil _⟩
  rcases addAll_eq_groupBy accepted with ⟨made, makes, finished, limited, updates⟩
  have computed : groupBy [.sum] additions = .ok rows := rfl
  obtain rfl : made = rows := Except.ok.inj (makes.symm.trans computed)
  exact ⟨accepted, finished, limited 1, (updates none).1⟩

end GroupTable

end StreamQuery
