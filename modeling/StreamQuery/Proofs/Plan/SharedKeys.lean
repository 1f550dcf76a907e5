import StreamQuery.Proofs.Plan.DistinctRows
import StreamQuery.Proofs.Value.Normalization
namespace StreamQuery

/-! Groups, distinct rows and distinct counts go by normal forms, and so by what is equal for
queries. -/

namespace Value

/-- Values of numbers that fit together and keep what they stand for have one normal form exactly if
they are equal for queries. Records are then in one group, the same distinct row and counted once if
their values are equal, and only then. -/
theorem normalized_iff_queryEquals {records : List Value} {results : Value → Value}
    (numeric : ∀ row ∈ records, (results row).OfNumbers)
    (faithful : ∀ row ∈ records, ∀ other ∈ records,
      Faithful ((results row).numbers ++ (results other).numbers)) :
    let firsts := unseen (fun row other => (results row).queryEquals (results other)) [] records
    (∀ row ∈ records, ∀ other ∈ records,
      ((results row).normalized.equals (results other).normalized ↔
        (results row).queryEquals (results other))) ∧
    ∀ (answers : String → Except QueryError Script) (context : Context) (mapper : Mapper)
        (now : Nat),
      context.settings.maxGroups = none →
      (∀ row ∈ records, (mapper (context.withRow row)).Settles answers (.ok (results row))) →
      (∀ stream : Stream Value, (stream now).Delivers answers now records →
        (Stream.group ⟨[mapper], none, []⟩ context stream now).Delivers answers now
          (firsts.map fun row => ⟨row, []⟩) ∧
        ∃ sample, (Stream.group ⟨[], none, [⟨some mapper, .countDistinct⟩]⟩ context stream
          now).Delivers answers now [⟨sample, [.int64 (Int64.ofNat firsts.length)]⟩]) ∧
      ∀ stream : Stream Shaped,
        (stream now).Delivers answers now (records.map fun row => ⟨results row, []⟩) →
        (Feed.distinct [] (stream now) now).Delivers answers now
          (firsts.map fun row => ⟨results row, []⟩) := by
  intro firsts
  have equal : ∀ row ∈ records, ∀ other ∈ records,
      ((results row).normalized.equals (results other).normalized ↔
        (results row).queryEquals (results other)) := by
    intro row member other among
    have pair := faithful row member other among
    rw [equals_normalized_iff_order _ _ (numeric row member) (numeric other among) pair,
      queryEquals_iff_order (numeric row member) (numeric other among) pair]
  have same : firstsBy results records = firsts :=
    unseen_congr_alike fun row member other among =>
      Bool.eq_iff_iff.mpr (equal row member other among)
  have present : (records.filter fun row => !(results row).isNull) = records := by
    refine List.filter_eq_self.mpr fun row member => ?_
    have number := numeric row member
    cases value : results row with
    | null =>
        rw [value] at number
        cases number
    | _ => rfl
  refine ⟨equal, fun answers context mapper now unlimited settles => ⟨?groups, ?rows⟩⟩
  case groups =>
    intro stream delivers
    have grouped := Grouping.delivers_keys unlimited settles delivers
    have counted := Grouping.delivers_countDistinct unlimited settles delivers
    rw [same] at grouped
    rw [present, same] at counted
    exact ⟨grouped, counted⟩
  case rows =>
    intro stream delivers
    have distinct := delivers.distinct []
    have mapped := unseen_map
      (fun first second => first.row.normalized.equals second.row.normalized)
      (fun row => (⟨results row, []⟩ : Shaped)) [] records
    have firstRows : unseen (fun first second => first.row.normalized.equals second.row.normalized)
        [] (records.map fun row => (⟨results row, []⟩ : Shaped)) =
          firsts.map fun row => ⟨results row, []⟩ := by
      rw [← same]
      exact mapped
    rw [firstRows] at distinct
    exact distinct

/-- The first three are one number in different forms. -/
theorem normalized_iff_queryEquals_four :
    let records : List Value :=
      [.int64 2, .double (.ofInt 2), .decimal ⟨200, 2⟩, .list [.decimal ⟨25, 1⟩]]
    let context : Context := ⟨.null, none, [], .default, .still 0⟩
    let stream : Stream Value := Feed.emit (records.map .ok) fun _ => .finished
    let answers : String → Except QueryError Script := fun name => .error (.source name "closed")
    let mapper := Mapper.column ⟨none, "this"⟩
    (∀ row ∈ records, row.OfNumbers) ∧
      (∀ row ∈ records, ∀ other ∈ records, Faithful (row.numbers ++ other.numbers)) ∧
      (Stream.group ⟨[mapper], none, []⟩ context stream 0).Delivers answers 0
        [⟨.int64 2, []⟩, ⟨.list [.decimal ⟨25, 1⟩], []⟩] := by
  intro records context stream answers mapper
  have numeric : ∀ row ∈ records, row.OfNumbers := by
    simp only [records, List.forall_mem_cons]
    refine ⟨trivial, ?_, trivial, ⟨trivial, trivial⟩, List.forall_mem_nil _⟩
    exact (by decide +kernel : (Binary.ofInt 2 : Double).isNaN = false)
  let all : List Number := [.int 2, .float (.ofInt 2), .decimal ⟨200, 2⟩, .decimal ⟨25, 1⟩]
  have two : (2 : Int).natAbs ≤ exactBound := by decide
  have fraction : Number.canonicalFloat (Decimal.toDouble ⟨25, 1⟩) =
      .float (Decimal.toDouble ⟨25, 1⟩) := by decide +kernel
  have faithful : Faithful all := by
    constructor
    · simp only [all, List.forall_mem_cons]
      refine ⟨trivial, ?float, ?whole, ?part, List.forall_mem_nil _⟩
      case float =>
        intro whole same
        rw [← same, (Binary.value_ofInt two).2]
        exact Decimal.value_ofDouble_integer (Binary.value_ofInt two).2 two
      case whole =>
        intro integral
        refine absurd ?_ (integral 2)
        norm_num [Decimal.value]
        rfl
      case part =>
        intro _ _ whole same
        have becomes := Number.canonicalFloat_eq_int.mpr
          ⟨(by decide +kernel : (Decimal.toDouble ⟨25, 1⟩).isFinite = true), same⟩
        rw [fraction] at becomes
        cases becomes
    · intro _
      simp only [all, List.forall_mem_cons]
      exact ⟨two, trivial, (by decide +kernel : (Decimal.toDouble ⟨200, 2⟩).isFinite = true),
        (by decide +kernel : (Decimal.toDouble ⟨25, 1⟩).isFinite = true), List.forall_mem_nil _⟩
  have among : ∀ row ∈ records, row.numbers ⊆ all := by
    simp only [records, List.forall_mem_cons]
    refine ⟨?_, ?_, ?_, ?_, List.forall_mem_nil _⟩ <;>
      simp [all, numbers, numbersOfItems, number?]
  have pairs : ∀ row ∈ records, ∀ other ∈ records, Faithful (row.numbers ++ other.numbers) :=
    fun row member other present =>
      faithful.mono (List.append_subset.mpr ⟨among row member, among other present⟩)
  have shared := (@normalized_iff_queryEquals records id numeric pairs).2 answers context mapper 0
    rfl (fun row _ now => ⟨now, rfl⟩)
  have firsts : unseen (fun row other => (id row).queryEquals (id other)) [] records =
      [.int64 2, .list [.decimal ⟨25, 1⟩]] := by
    have double : queryEquals (.double (.ofInt 2)) (.int64 2) = true := by decide +kernel
    have decimal : queryEquals (.decimal ⟨200, 2⟩) (.int64 2) = true := by decide +kernel
    have list : queryEquals (.list [.decimal ⟨25, 1⟩]) (.int64 2) = false := by decide +kernel
    simp [records, unseen, double, decimal, list]
  have groups := (shared.1 stream (Feed.delivers_emit records (fun now => .finished now) 0)).1
  rw [firsts] at groups
  exact ⟨numeric, pairs, groups⟩

/-- An integer of one bit more than the mantissa of a double has is equal to the even double below
it for queries, and has another normal form. -/
theorem normalized_of_wide_integer_different :
    ¬∀ left right : Value, left.OfNumbers → right.OfNumbers →
      (left.normalized.equals right.normalized ↔ left.queryEquals right) := by
  intro same
  have number : (Binary.ofInt 9007199254740992 : Double).isNaN = false := by decide +kernel
  have shared := (same (.int64 9007199254740993) (.double (.ofInt 9007199254740992)) trivial
    number).mpr (by decide +kernel)
  exact absurd shared (by decide +kernel)

end Value

end StreamQuery
