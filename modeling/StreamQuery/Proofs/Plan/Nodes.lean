import StreamQuery.Plan.Node
import StreamQuery.Proofs.Plan.Operands
namespace StreamQuery

/-! Nodes whose parts respect a likeness are read as values and conditions that do. -/

variable {relation : Likeness}

/-- There are slots only where the aggregates are shared. -/
def Metadata.Respects (relation : Likeness) (metadata : Metadata) : Prop :=
  ∀ ⦃name : String⦄ ⦃calls : List Call⦄, metadata.valueFeature? name = some (.slots calls) →
    relation.SharesAggregates

structure Compiled.Respects (relation : Likeness) (compiled : Compiled) : Prop where
  value : Ensures compiled.value.get (Mapper.Respects relation)
  predicate : Ensures compiled.predicate.get (Predicate.Respects relation)

namespace Node

def Respects (relation : Likeness) : Node → Prop
  | .literal _ => True
  | .column reference => (Mapper.column reference).Respects relation
  | .call _ arguments => ∀ argument ∈ arguments, argument.Respects relation
  | .binary _ left right => left.Respects relation ∧ right.Respects relation
  | .signed _ operand | .cast operand _ => operand.Respects relation
  | .caseWhen subject branches otherwise =>
      (∀ part ∈ subject, part.Respects relation) ∧
        (∀ branch ∈ branches, branch.1.Respects relation ∧ branch.2.Respects relation) ∧
        ∀ part ∈ otherwise, part.Respects relation
  | .parenthesis inner | .not inner => inner.Respects relation
  | .subselect query plan =>
      Ensures plan.get fun plan => (plan.firstValue query).Respects relation
  | .isNull subject _ | .isBoolean subject _ _ => subject.Respects relation
  | .between subject low high _ =>
      subject.Respects relation ∧ low.Respects relation ∧ high.Respects relation
  | .inList subject members _ =>
      subject.Respects relation ∧ ∀ member ∈ members, member.Respects relation

variable {metadata : Metadata} {expr : Expr} {node : Node}

theorem ensures_unsupported {holds : α → Prop} : Ensures (unsupported expr) holds :=
  ensures_error _

theorem ensures_values {parts : List Compiled} (respects : ∀ part ∈ parts, part.Respects relation) :
    Ensures (values parts) fun mappers => ∀ mapper ∈ mappers, mapper.Respects relation :=
  ensures_mapM fun part member => (respects part member).value

theorem Respects.operands? {node : Node} {parts : List Compiled} (respects : node.Respects relation)
    (found : node.operands? = some parts) : ∀ part ∈ parts, part.Respects relation := by
  cases node <;> cases found
  · exact respects
  · exact List.forall_mem_cons.mpr ⟨respects.1, List.forall_mem_singleton.mpr respects.2⟩

theorem ensures_valueOr {fallback : Mapper} {last : Option Compiled}
    (fallbackRespects : fallback.Respects relation)
    (respects : ∀ part ∈ last, part.Respects relation) :
    Ensures (valueOr fallback last) (Mapper.Respects relation) := by
  cases last with
  | none => exact ensures_ok fallbackRespects
  | some part => exact (respects part rfl).value

end Node

namespace ValueFeature

variable {metadata : Metadata} {expr : Expr} {node : Node}

theorem compileCase_respects (respects : node.Respects relation) :
    Ensures (compileCase expr node) (Mapper.Respects relation) := by
  simp only [compileCase]
  split
  · rcases respects with ⟨_, branches, last⟩
    have compiled := ensures_mapM fun branch member =>
      ensures_pair (branches branch member).1.predicate (branches branch member).2.value
    exact compiled.bind fun _ branches =>
      (Node.ensures_valueOr (Mapper.constant_respects .null) last).bind fun _ otherwise =>
        ensures_ok (Mapper.searchedCase_respects branches otherwise)
  · rcases respects with ⟨subject, branches, last⟩
    have compiled := ensures_mapM fun branch member =>
      ensures_pair (branches branch member).1.value (branches branch member).2.value
    exact (subject _ rfl).value.bind fun _ subject => compiled.bind fun _ branches =>
      (Node.ensures_valueOr (Mapper.constant_respects .null) last).bind fun _ otherwise =>
        ensures_ok (Mapper.simpleCase_respects subject branches otherwise)
  · exact Node.ensures_unsupported

theorem compileCast_respects (respects : node.Respects relation) :
    Ensures (compileCast metadata expr node) (Mapper.Respects relation) := by
  simp only [compileCast]
  split
  · split
    · exact ensures_error _
    · next feature _ =>
        exact Compiled.Respects.value respects |>.bind fun _ operand =>
          ensures_ok (operand.check feature.apply_fails)
  · exact Node.ensures_unsupported

theorem compileSlot_respects (shares : relation.SharesAggregates) (calls : List Call) :
    Ensures (compileSlot calls expr node) (Mapper.Respects relation) := by
  refine (ensures_compileSlot calls).imp fun mapper ⟨position, reads⟩ => ?_
  intro context other alike
  rw [reads, reads, shares alike]
  exact relation.ok _

theorem compile_respects_of_noSlot (respects : node.Respects relation) (feature : ValueFeature)
    (noSlot : ∀ calls, feature ≠ .slots calls) :
    Ensures (feature.compile metadata expr node) (Mapper.Respects relation) := by
  cases found : node.operands? with
  | some parts =>
      refine (feature.compile_computes found noSlot).imp ?_
      rintro mapper ⟨operands, nothing | compiles, computes⟩
      · exact computes.respects fun _ member => nomatch nothing ▸ member
      · exact computes.respects (Node.ensures_values (respects.operands? found) operands compiles)
  | none =>
      have uncounted (arity : Arity) : Ensures (node.operands arity expr) fun _ => False := by
        simp only [Node.operands, found]
        exact Node.ensures_unsupported
      have zone := ensures_true (metadata.zones.chosen metadata.settings)
      cases feature with
      | property =>
          cases node with
          | column reference => exact ensures_ok respects
          | _ => exact Node.ensures_unsupported
      | subselect =>
          cases node with
          | subselect query plan =>
              exact Ensures.map respects fun plan holds => holds
          | _ => exact Node.ensures_unsupported
      | caseWhen => exact compileCase_respects respects
      | cast => exact compileCast_respects respects
      | scalar | constantFunction => exact (uncounted _).bind fun _ absurd => absurd.elim
      | now | formatDate =>
          exact zone.bind fun _ _ => (uncounted _).bind fun _ absurd => absurd.elim
      | newRecord =>
          simp only [compile, compileNewRecord, found]
          exact Node.ensures_unsupported
      | slots calls => exact absurd rfl (noSlot calls)
      | constant value => exact ensures_ok (Mapper.constant_respects value)

theorem compile_respects (respects : node.Respects relation) (feature : ValueFeature)
    (shares : ∀ calls, feature = .slots calls → relation.SharesAggregates) :
    Ensures (feature.compile metadata expr node) (Mapper.Respects relation) := by
  by_cases slot : ∃ calls, feature = .slots calls
  · rcases slot with ⟨calls, rfl⟩
    exact compileSlot_respects (shares calls rfl) calls
  · exact compile_respects_of_noSlot respects feature fun calls same => slot ⟨calls, same⟩

end ValueFeature

namespace FilterFeature

variable {expr : Expr} {node : Node}

theorem ensures_sides (respects : node.Respects relation) :
    Ensures (sides expr node) fun pair => pair.1.Respects relation ∧ pair.2.Respects relation := by
  simp only [sides]
  split
  · exact ensures_pair respects.1.value respects.2.value
  · have parts := List.forall_mem_cons.mp respects
    exact ensures_pair parts.1.value (List.forall_mem_singleton.mp parts.2).value
  · exact ensures_error _
  · exact Node.ensures_unsupported

theorem compilePair_respects (respects : node.Respects relation) (test : Value → Value → Bool) :
    Ensures (compilePair test expr node) (Predicate.Respects relation) :=
  (ensures_sides respects).map fun _ both => Predicate.ofPair_respects both.1 both.2 test

theorem compileIsNull_respects (respects : node.Respects relation) :
    Ensures (compileIsNull expr node) (Predicate.Respects relation) := by
  simp only [compileIsNull]
  split
  · exact Ensures.map (Compiled.Respects.value respects) fun _ subject =>
      Predicate.ofValue_respects subject _
  · exact (List.forall_mem_singleton.mp respects).value.map fun _ subject =>
      Predicate.ofValue_respects subject _
  · exact ensures_error _
  · exact Node.ensures_unsupported

theorem compile_respects (respects : node.Respects relation) (feature : FilterFeature) :
    Ensures (feature.compile expr node) (Predicate.Respects relation) := by
  cases feature with
  | compare comparison => exact compilePair_respects respects _
  | like => exact compilePair_respects respects _
  | between =>
      cases node with
      | between subject low high negated =>
          exact respects.1.value.bind fun _ subject => respects.2.1.value.bind fun _ low =>
            respects.2.2.value.bind fun _ high =>
              ensures_ok (Predicate.between_respects subject low high negated)
      | _ => exact Node.ensures_unsupported
  | inList =>
      cases node with
      | inList subject members negated =>
          exact respects.1.value.bind fun _ subject =>
            (Node.ensures_values respects.2).bind fun _ members =>
              ensures_ok (Predicate.inList_respects subject members negated)
      | _ => exact Node.ensures_unsupported
  | isNull => exact compileIsNull_respects respects
  | isBoolean =>
      cases node with
      | isBoolean subject value negated =>
          exact Ensures.map (Compiled.Respects.value respects) fun _ subject =>
            Predicate.ofValue_respects subject _
      | _ => exact Node.ensures_unsupported
  | constant holds => exact ensures_ok (Predicate.constant_respects holds)

end FilterFeature

namespace Node

variable {metadata : Metadata} {expr : Expr} {node : Node}

theorem ensures_byFunction? (known : metadata.Respects relation)
    (respects : node.Respects relation) (name : String) :
    ∀ result ∈ node.byFunction? metadata name expr, Ensures result (Mapper.Respects relation) := by
  intro result found
  rcases Option.map_eq_some_iff.mp found with ⟨feature, among, rfl⟩
  exact ValueFeature.compile_respects respects feature fun calls same => known (same ▸ among)

theorem ensures_byTest? (respects : node.Respects relation) (name : String) :
    ∀ result ∈ node.byTest? metadata name expr, Ensures result (Predicate.Respects relation) := by
  intro result found
  rcases Option.map_eq_some_iff.mp found with ⟨feature, _, rfl⟩
  exact FilterFeature.compile_respects respects feature

theorem namedValue_respects (known : metadata.Respects relation)
    (respects : node.Respects relation) (category : FeatureCategory) (name : String) :
    Ensures (node.namedValue metadata category name expr) (Mapper.Respects relation) := by
  simp only [namedValue]
  split
  · next found => exact ensures_byFunction? known respects name _ found
  · split
    · next found =>
        exact (ensures_byTest? respects name _ found).map fun _ predicate => predicate.toMapper
    · exact ensures_error _

theorem namedPredicate_respects (known : metadata.Respects relation)
    (respects : node.Respects relation) (category : FeatureCategory) (name : String) :
    Ensures (node.namedPredicate metadata category name expr) (Predicate.Respects relation) := by
  simp only [namedPredicate]
  split
  · next found => exact ensures_byTest? respects name _ found
  · split
    · next found =>
        exact (ensures_byFunction? known respects name _ found).map fun _ value => value.toPredicate
    · exact ensures_error _

theorem requiredValue_respects (known : metadata.Respects relation)
    (respects : node.Respects relation) (name : String) :
    Ensures (node.requiredValue metadata name expr) (Mapper.Respects relation) := by
  simp only [requiredValue]
  cases found : node.byFunction? metadata name expr with
  | none => exact ensures_error _
  | some result => exact ensures_byFunction? known respects name _ found

theorem requiredPredicate_respects (respects : node.Respects relation) (name : String) :
    Ensures (node.requiredPredicate metadata name expr) (Predicate.Respects relation) := by
  simp only [requiredPredicate]
  cases found : node.byTest? metadata name expr with
  | none => exact ensures_error _
  | some result => exact ensures_byTest? respects name _ found

theorem condition?_respects (respects : node.Respects relation) :
    ∀ result ∈ node.condition? metadata expr, Ensures result (Predicate.Respects relation) := by
  intro result found
  simp only [condition?] at found
  split at found <;> cases found
  · exact respects.1.predicate.bind fun _ left => respects.2.predicate.bind fun _ right =>
      ensures_ok (left.and right)
  · exact respects.1.predicate.bind fun _ left => respects.2.predicate.bind fun _ right =>
      ensures_ok (left.or right)
  · exact (Compiled.Respects.predicate respects).map fun _ inner => inner.negate
  · exact requiredPredicate_respects respects _
  · exact requiredPredicate_respects respects _
  · exact requiredPredicate_respects respects _
  · exact requiredPredicate_respects respects _

theorem value_respects (known : metadata.Respects relation)
    (respects : node.Respects relation) :
    Ensures (node.value metadata expr) (Mapper.Respects relation) := by
  simp only [value]
  split
  · exact (ensures_true _).map fun value _ => Mapper.constant_respects value
  · exact requiredValue_respects known respects _
  · exact namedValue_respects known respects _ _
  · exact namedValue_respects known respects _ _
  · exact (Compiled.Respects.value respects).map fun _ operand => operand.withSign _
  · exact requiredValue_respects known respects _
  · exact requiredValue_respects known respects _
  · exact Compiled.Respects.value respects
  · exact requiredValue_respects known respects _
  · split
    · next found =>
        exact (condition?_respects respects _ found).map fun _ predicate => predicate.toMapper
    · exact ensures_unsupported

theorem predicate_respects (known : metadata.Respects relation)
    (respects : node.Respects relation) :
    Ensures (node.predicate metadata expr) (Predicate.Respects relation) := by
  simp only [predicate]
  split
  · exact namedPredicate_respects known respects _ _
  · exact namedPredicate_respects known respects _ _
  · exact Compiled.Respects.predicate respects
  · split
    · next found => exact condition?_respects respects _ found
    · exact (value_respects known respects).map fun _ value => value.toPredicate

theorem compile_respects (known : metadata.Respects relation)
    (respects : node.Respects relation) :
    (node.compile metadata expr).Respects relation where
  value := value_respects known respects
  predicate := predicate_respects known respects

end Node

end StreamQuery
