import StreamQuery.Proofs.Stream.Arrivals
import StreamQuery.Proofs.Value.Ordering
namespace StreamQuery

/-! Sorting a stream. Rows are ordered by the first position in which their keys differ, each
position upward or downward, and rows without such a position keep the order in which they came. -/

/-! An order that is transitive among some values alone sorts these values. -/

section

variable {notAfter : α → α → Bool} {values : List α}

theorem mergeSort_attach (notAfter : α → α → Bool) (values : List α) :
    (values.attach.mergeSort fun x y => notAfter x.val y.val).map Subtype.val =
      values.mergeSort notAfter := by
  have mapped : (values.attach.mergeSort fun x y => notAfter x.val y.val).map Subtype.val =
      (values.attach.map Subtype.val).mergeSort notAfter := List.map_mergeSort fun _ _ _ _ => rfl
  rw [mapped, List.attach_map_subtype_val]

variable
  (transitive : ∀ x ∈ values, ∀ y ∈ values, ∀ z ∈ values,
    notAfter x y → notAfter y z → notAfter x z)
  (total : ∀ x ∈ values, ∀ y ∈ values, notAfter x y || notAfter y x)
include transitive total

theorem pairwise_mergeSort_of_mem :
    (values.mergeSort notAfter).Pairwise fun x y => notAfter x y := by
  rw [← mergeSort_attach, List.pairwise_map]
  apply List.pairwise_mergeSort
  · exact fun x y z => transitive x x.2 y y.2 z z.2
  · exact fun x y => total x x.2 y y.2

theorem sublist_mergeSort_of_mem {part : List α} (ordered : part.Pairwise fun x y => notAfter x y)
    (among : part.Sublist values) : part.Sublist (values.mergeSort notAfter) := by
  rw [← List.attach_map_subtype_val values] at among
  obtain ⟨attached, inside, rfl⟩ := List.sublist_map_iff.mp among
  have inOrder : attached.Pairwise fun x y => notAfter x.val y.val := List.pairwise_map.mp ordered
  rw [← mergeSort_attach]
  refine (List.sublist_mergeSort ?_ ?_ inOrder inside).map Subtype.val
  · exact fun x y z => transitive x x.2 y y.2 z z.2
  · exact fun x y => total x x.2 y y.2

end

namespace Value

/-- The order is transitive among these values, as it is not among all. -/
def TransitiveAmong (values : List Value) : Prop :=
  ∀ x ∈ values, ∀ y ∈ values, ∀ z ∈ values,
    x.order y ≠ .gt → y.order z ≠ .gt → x.order z ≠ .gt

theorem TransitiveAmong.compose {values : List Value} (transitive : TransitiveAmong values)
    {x y z : Value} (first : x ∈ values) (second : y ∈ values) (third : z ∈ values) :
    Compose (x.order y) (y.order z) (x.order z) := by
  have ahead := transitive x first y second z third
  have back := transitive z third y second x first
  have beyondThird := transitive y second x first z third
  have beforeThird := transitive z third x first y second
  have beyondFirst := transitive x first z third y second
  have beforeFirst := transitive y second z third x first
  rw [order_swap z y, order_swap y x, order_swap z x] at *
  generalize x.order y = xy at *
  generalize y.order z = yz at *
  generalize x.order z = xz at *
  cases xy <;> cases yz <;> cases xz <;> simp_all [Compose]

end Value

namespace Shaped

/-! What comparing two lists of keys says. -/

/-- The keys are equal in so many positions at the beginning. -/
def TieFor (count : Nat) (left right : List Value) : Prop :=
  ∀ position < count, ∀ x y, left[position]? = some x → right[position]? = some y → x.order y = .eq

/-- In all positions that rows are sorted by. -/
def Ties (descending : List Bool) : List Value → List Value → Prop :=
  TieFor descending.length

/-- The first position in which the keys differ sorts the left ones behind the right ones. -/
def Exceeds (descending : List Bool) (left right : List Value) : Prop :=
  ∃ position downward x y, descending[position]? = some downward ∧ left[position]? = some x ∧
    right[position]? = some y ∧ TieFor position left right ∧
      x.order y = if downward then .lt else .gt

theorem tieFor_succ {count : Nat} {left right : Value} {lefts rights : List Value} :
    TieFor (count + 1) (left :: lefts) (right :: rights) ↔
      left.order right = .eq ∧ TieFor count lefts rights := by
  constructor
  · intro ties
    refine ⟨ties 0 (Nat.succ_pos count) left right rfl rfl, fun position within x y => ?_⟩
    exact ties (position + 1) (Nat.succ_lt_succ within) x y
  · rintro ⟨head, ties⟩ position within x y
    cases position with
    | zero => rintro ⟨⟩ ⟨⟩; exact head
    | succ position => exact ties position (Nat.lt_of_succ_lt_succ within) x y

def compareKey (downward : Bool) (left right : Value) : Ordering :=
  if downward then right.order left else left.order right

theorem compareKey_eq_eq_iff {downward : Bool} {left right : Value} :
    compareKey downward left right = .eq ↔ left.order right = .eq := by
  cases downward with
  | false => rfl
  | true => rw [compareKey, if_pos rfl, Value.order_swap, Ordering.swap_eq_eq]

theorem compareKey_eq_gt_iff {downward : Bool} {left right : Value} :
    compareKey downward left right = .gt ↔ left.order right = if downward then .lt else .gt := by
  cases downward with
  | false => rfl
  | true => rw [compareKey, if_pos rfl, Value.order_swap, Ordering.swap_eq_gt, if_pos rfl]

theorem compareKeys_cons (downward : Bool) (rest : List Bool) (left right : Value)
    (lefts rights : List Value) :
    compareKeys (downward :: rest) (left :: lefts) (right :: rights) =
      (compareKey downward left right).then (compareKeys rest lefts rights) := rfl

theorem compareKeys_eq_eq_iff {descending : List Bool} {left right : List Value} :
    compareKeys descending left right = .eq ↔ Ties descending left right := by
  induction descending generalizing left right with
  | nil => exact iff_of_true rfl fun position within => absurd within (Nat.not_lt_zero position)
  | cons downward rest induction =>
      cases left with
      | nil => exact iff_of_true rfl fun _ _ _ _ found => nomatch found
      | cons x lefts =>
          cases right with
          | nil => exact iff_of_true rfl fun _ _ _ _ _ found => nomatch found
          | cons y rights =>
              rw [compareKeys_cons, Ordering.then_eq_eq, compareKey_eq_eq_iff, induction]
              exact tieFor_succ.symm

theorem compareKeys_eq_gt_iff {descending : List Bool} {left right : List Value} :
    compareKeys descending left right = .gt ↔ Exceeds descending left right := by
  induction descending generalizing left right with
  | nil => exact iff_of_false nofun fun ⟨_, _, _, _, found, _⟩ => nomatch found
  | cons downward rest induction =>
      cases left with
      | nil => exact iff_of_false nofun fun ⟨_, _, _, _, _, found, _⟩ => nomatch found
      | cons x lefts =>
          cases right with
          | nil => exact iff_of_false nofun fun ⟨_, _, _, _, _, _, found, _⟩ => nomatch found
          | cons y rights =>
              rw [compareKeys_cons, Ordering.then_eq_gt, compareKey_eq_gt_iff,
                compareKey_eq_eq_iff, induction]
              constructor
              · rintro (head | ⟨tie, position, turned, x, y, sorts, first, second, ties, differ⟩)
                · exact ⟨0, downward, x, y, rfl, rfl, rfl,
                    fun _ before => absurd before (Nat.not_lt_zero _), head⟩
                · exact ⟨position + 1, turned, x, y, sorts, first, second,
                    tieFor_succ.mpr ⟨tie, ties⟩, differ⟩
              · rintro ⟨position, turned, x, y, sorts, first, second, ties, differ⟩
                cases position with
                | zero =>
                    cases sorts
                    cases first
                    cases second
                    exact .inl differ
                | succ position =>
                    have parts := tieFor_succ.mp ties
                    exact .inr ⟨parts.1, position, turned, x, y, sorts, first, second, parts.2,
                      differ⟩

instance (descending : List Bool) (left right : List Value) :
    Decidable (Ties descending left right) :=
  decidable_of_iff _ compareKeys_eq_eq_iff

theorem compareKeys_swap (descending : List Bool) (left right : List Value) :
    compareKeys descending left right = (compareKeys descending right left).swap := by
  induction descending generalizing left right with
  | nil => rfl
  | cons downward rest induction =>
      cases left with
      | nil => cases right <;> rfl
      | cons x lefts =>
          cases right with
          | nil => rfl
          | cons y rights =>
              have key : compareKey downward x y = (compareKey downward y x).swap := by
                cases downward with
                | false => exact Value.order_swap x y
                | true => exact Value.order_swap y x
              rw [compareKeys_cons, compareKeys_cons, Ordering.swap_then, key, induction]

section

variable {descending : List Bool} {values : List Value}
  (transitive : Value.TransitiveAmong values)
include transitive

theorem compose_compareKey {x y z : Value} (first : x ∈ values) (second : y ∈ values)
    (third : z ∈ values) (downward : Bool) :
    Compose (compareKey downward x y) (compareKey downward y z) (compareKey downward x z) := by
  have compose := transitive.compose first second third
  cases downward with
  | false => exact compose
  | true =>
      have turned := compose.swap
      rw [← Value.order_swap y x, ← Value.order_swap z y, ← Value.order_swap z x] at turned
      exact turned

theorem compose_compareKeys {left middle right : List Value} (first : left ⊆ values)
    (second : middle ⊆ values) (third : right ⊆ values) (same : left.length = middle.length)
    (alike : middle.length = right.length) :
    Compose (compareKeys descending left middle) (compareKeys descending middle right)
      (compareKeys descending left right) := by
  induction descending generalizing left middle right with
  | nil => rfl
  | cons downward rest induction =>
      cases left with
      | nil =>
          obtain rfl := List.length_eq_zero_iff.mp same.symm
          rfl
      | cons x lefts =>
          obtain ⟨y, middles, rfl⟩ := List.exists_cons_of_length_eq_add_one same.symm
          obtain ⟨z, rights, rfl⟩ := List.exists_cons_of_length_eq_add_one alike.symm
          have heads := compose_compareKey transitive (first List.mem_cons_self)
            (second List.mem_cons_self) (third List.mem_cons_self) downward
          have tails := induction (List.subset_of_cons_subset first)
            (List.subset_of_cons_subset second) (List.subset_of_cons_subset third)
            (Nat.succ_inj.mp same) (Nat.succ_inj.mp alike)
          exact heads.andThen tails

end

/-! Sorted rows. -/

/-- All rows, none behind one whose keys exceed its own, and those that tie in the order in which
they came. -/
structure SortedFrom (descending : List Bool) (rows sorted : List Shaped) : Prop where
  permutation : sorted.Perm rows
  ordered : sorted.Pairwise fun earlier later => ¬Exceeds descending earlier.keys later.keys
  stable : ∀ row ∈ rows, sorted.filter (fun other => Ties descending row.keys other.keys) =
    rows.filter fun other => Ties descending row.keys other.keys

def keyValues (rows : List Shaped) : List Value :=
  rows.flatMap keys

theorem sortedFrom_sort (descending : List Bool) {rows : List Shaped}
    (uniform : ∀ row ∈ rows, ∀ other ∈ rows, row.keys.length = other.keys.length)
    (transitive : Value.TransitiveAmong (keyValues rows)) :
    SortedFrom descending rows (sort descending rows) := by
  have within {row : Shaped} (member : row ∈ rows) : row.keys ⊆ keyValues rows :=
    fun key among => List.mem_flatMap.mpr ⟨row, member, among⟩
  have compose {x y z : Shaped} (first : x ∈ rows) (second : y ∈ rows) (third : z ∈ rows) :
      Compose (compareKeys descending x.keys y.keys) (compareKeys descending y.keys z.keys)
        (compareKeys descending x.keys z.keys) :=
    compose_compareKeys transitive (within first) (within second) (within third)
      (uniform x first y second) (uniform y second z third)
  have inTurn : ∀ x ∈ rows, ∀ y ∈ rows, ∀ z ∈ rows,
      (compareKeys descending x.keys y.keys).isLE → (compareKeys descending y.keys z.keys).isLE →
        (compareKeys descending x.keys z.keys).isLE := by
    intro x first y second z third
    simp only [Ordering.isLE_iff_ne_gt]
    exact (compose first second third).ne_gt
  have total : ∀ x ∈ rows, ∀ y ∈ rows, (compareKeys descending x.keys y.keys).isLE ||
      (compareKeys descending y.keys x.keys).isLE := by
    intro x _ y _
    rw [compareKeys_swap descending y.keys]
    cases compareKeys descending x.keys y.keys <;> rfl
  have permutation : (sort descending rows).Perm rows := List.mergeSort_perm _ _
  refine ⟨permutation, ?ordered, fun row member => ?stable⟩
  case ordered =>
    refine (pairwise_mergeSort_of_mem inTurn total).imp fun {earlier later} notAfter => ?_
    rw [← compareKeys_eq_gt_iff]
    exact Ordering.isLE_iff_ne_gt.mp notAfter
  case stable =>
    -- The rows that tie with this one are in order as they came.
    let tied (other : Shaped) : Bool := Ties descending row.keys other.keys
    have tie {other : Shaped} (among : other ∈ rows.filter tied) :
        other ∈ rows ∧ compareKeys descending row.keys other.keys = .eq := by
      obtain ⟨came, ties⟩ := List.mem_filter.mp among
      exact ⟨came, compareKeys_eq_eq_iff.mpr (of_decide_eq_true ties)⟩
    have inOrder : (rows.filter tied).Pairwise fun x y =>
        (compareKeys descending x.keys y.keys).isLE := by
      apply List.pairwise_of_forall_mem_list
      intro x first y second
      have throughRow := compose (tie first).1 member (tie second).1
      rw [compareKeys_swap descending x.keys, (tie first).2, (tie second).2] at throughRow
      rw [show compareKeys descending x.keys y.keys = .eq from throughRow]
      rfl
    have kept := (sublist_mergeSort_of_mem inTurn total inOrder List.filter_sublist).filter tied
    simp only [List.filter_filter, Bool.and_self] at kept
    exact (kept.eq_of_length (permutation.filter tied).length_eq.symm).symm

theorem sort_nil (rows : List Shaped) : sort [] rows = rows :=
  List.mergeSort_of_pairwise (List.pairwise_of_forall fun _ _ => rfl)

end Shaped

namespace Feed

/-! A stream that comes to its end without an error is sorted as a whole. -/

/-- These values come and no error, and the stream ends at this instant. -/
structure Completes (feed : Feed α) (world : World) (values : List α) (instant : Nat) : Prop where
  shown : (Feed.run none feed world).items.map (·.2) = values.map .ok
  ended : (Feed.run none feed world).ended = some instant

theorem Completes.run_collect {feed : Feed α} {values : List α} {world : World} {instant : Nat}
    (completes : feed.Completes world values instant) (collected : List α) :
    (feed.collect collected world.now).run world =
        (some (.ok (collected.reverse ++ values)), (Feed.run none feed world).world) ∧
      (Feed.run none feed world).world.now = instant := by
  obtain ⟨shown, ended⟩ := completes
  induction feed generalizing values world collected with
  | finished =>
      obtain rfl := List.map_eq_nil_iff.mp shown.symm
      rw [List.append_nil]
      exact ⟨rfl, Option.some.inj ended⟩
  | item entry rest induction =>
      cases values with
      | nil => cases shown
      | cons value values =>
          have parts := List.cons.inj shown
          obtain rfl : entry = .ok value := parts.1
          have later := induction world.now (value :: collected) parts.2 ended
          rw [List.reverse_cons, List.append_assoc] at later
          exact later
  | waiting deadline resume induction =>
      exact @induction _ _ (world.advance deadline) collected shown ended
  | opening name next induction =>
      exact @induction _ _ (world.request name).2 collected shown ended
  | silent => cases ended

theorem Completes.run_sort {feed : Feed Shaped} {rows : List Shaped} {world : World}
    {instant : Nat} (completes : feed.Completes world rows instant) (descending : List Bool) :
    Feed.run none (feed.sort descending world.now) world =
      ⟨(Shaped.sort descending rows).map fun row => (instant, .ok row), some instant,
        (Feed.run none feed world).world⟩ := by
  obtain ⟨comes, rfl⟩ := completes.run_collect []
  rw [Feed.sort, run_afterTask comes]
  refine (run_ofItems _ _).trans ?_
  rw [List.map_map]
  rfl

end Feed

end StreamQuery
