import Mathlib.Data.List.Induction
namespace StreamQuery

/-! The best entry of a list, found in one pass. An entry is kept until a later one beats it, which
leads to the first entry that none beats if beating goes by ranks. -/

variable {α : Type} {beats : α → α → Bool} {entries seen : List α} {best next : α}

def challenge (beats : α → α → Bool) : Option α → α → Option α
  | none, entry => some entry
  | some best, entry => some (if beats entry best then entry else best)

def firstUnbeaten (beats : α → α → Bool) (entries : List α) : Option α :=
  entries.find? fun entry => entries.all fun other => !beats other entry

theorem not_beats_of_firstUnbeaten (found : firstUnbeaten beats entries = some best)
    {other : α} (member : other ∈ entries) : ¬beats other best := by
  have unbeaten := List.find?_some found
  simpa using List.all_eq_true.mp unbeaten other member

/-- Beating is never mutual, and where one entry beats another, a third one is beaten by the former
or beats the latter. -/
structure Ranks (beats : α → α → Bool) (entries : List α) : Prop where
  asymmetric : ∀ x ∈ entries, ∀ y ∈ entries, beats x y → ¬beats y x
  between : ∀ x ∈ entries, ∀ y ∈ entries, ∀ z ∈ entries, beats x z → beats x y ∨ beats y z

theorem Ranks.mono {others : List α} (ranks : Ranks beats others) (among : entries ⊆ others) :
    Ranks beats entries where
  asymmetric x first y second := ranks.asymmetric x (among first) y (among second)
  between x first y second z third := ranks.between x (among first) y (among second) z (among third)

theorem Ranks.of_order {order : α → α → Option Ordering} {wanted : Ordering}
    (strict : wanted ≠ .eq) (sides : ∀ x y, order x y = (order y x).map Ordering.swap)
    (transitive : ∀ x ∈ entries, ∀ y ∈ entries, ∀ z ∈ entries,
      order x y ≠ some .gt → order y z ≠ some .gt → order x z ≠ some .gt) :
    Ranks (fun x y => order x y == some wanted) entries := by
  have flipped (x y : α) : order x y = some .lt ↔ order y x = some .gt := by
    rw [sides x y]
    cases order y x with
    | none => simp
    | some result => cases result <;> simp
  simp only [ne_eq] at transitive
  constructor
  · intro x _ y _ beats back
    simp only [beq_iff_eq] at beats back
    rw [sides, beats] at back
    cases wanted with
    | eq => exact strict rfl
    | lt | gt => cases back
  · intro x first y second z third beats
    simp only [beq_iff_eq] at beats ⊢
    cases wanted with
    | eq => exact absurd rfl strict
    | gt =>
        by_contra neither
        rw [not_or] at neither
        exact transitive x first y second z third neither.1 neither.2 beats
    | lt =>
        rw [flipped] at beats
        rw [flipped, flipped, or_comm]
        by_contra neither
        rw [not_or] at neither
        exact transitive z third y second x first neither.1 neither.2 beats

structure Leads (beats : α → α → Bool) (seen : List α) (best : α) : Prop where
  unbeaten : ∀ other ∈ seen, ¬beats other best
  /-- It has beaten all entries in front of it. -/
  first : ∃ before after, seen = before ++ best :: after ∧ ∀ other ∈ before, beats best other

theorem Leads.mem (leads : Leads beats seen best) : best ∈ seen := by
  rcases leads.first with ⟨before, after, rfl, _⟩
  simp

theorem Leads.challenge (leads : Leads beats seen best) (ranks : Ranks beats (seen ++ [next])) :
    Leads beats (seen ++ [next]) (if beats next best then next else best) := by
  have last : next ∈ seen ++ [next] := by simp
  have kept : best ∈ seen ++ [next] := List.mem_append_left _ leads.mem
  rcases leads.first with ⟨before, after, rfl, earlier⟩
  split
  · next wins =>
      have beaten (other : α) (member : other ∈ before ++ best :: after) : beats next other := by
        have among := List.mem_append_left [next] member
        rcases ranks.between next last other among best kept wins with done | back
        · exact done
        · exact absurd back (leads.unbeaten other member)
      refine ⟨?_, _, [], rfl, beaten⟩
      intro other member
      rcases List.mem_append.mp member with before | same
      · exact ranks.asymmetric next last other member (beaten other before)
      · obtain rfl := List.mem_singleton.mp same
        exact fun self => ranks.asymmetric other last other last self self
  · next stays =>
      refine ⟨?_, before, after ++ [next], by simp, earlier⟩
      intro other member
      rcases List.mem_append.mp member with before | same
      · exact leads.unbeaten other before
      · obtain rfl := List.mem_singleton.mp same
        exact stays

theorem Leads.firstUnbeaten (leads : Leads beats entries best) :
    firstUnbeaten beats entries = some best := by
  rcases leads.first with ⟨before, after, same, earlier⟩
  refine List.find?_eq_some_iff_append.mpr ⟨?_, before, after, same, ?_⟩
  · simpa using leads.unbeaten
  · intro other member
    simpa using ⟨best, leads.mem, earlier other member⟩

theorem leads_foldl (ranks : Ranks beats (seen ++ entries)) (leads : Leads beats seen best) :
    ∃ final, entries.foldl (challenge beats) (some best) = some final ∧
      Leads beats (seen ++ entries) final := by
  induction entries generalizing seen best with
  | nil => exact ⟨best, rfl, by simpa using leads⟩
  | cons next rest induction =>
      have whole : seen ++ next :: rest = seen ++ [next] ++ rest := by simp
      rw [whole] at ranks ⊢
      exact induction ranks (leads.challenge (ranks.mono (List.subset_append_left _ _)))

theorem foldl_challenge (ranks : Ranks beats entries) :
    entries.foldl (challenge beats) none = firstUnbeaten beats entries := by
  cases entries with
  | nil => rfl
  | cons first rest =>
      have alone : Leads beats [first] first := by
        have member : first ∈ first :: rest := List.mem_cons_self
        refine ⟨?_, [], [], rfl, List.forall_mem_nil _⟩
        simpa using fun self => ranks.asymmetric first member first member self self
      rcases leads_foldl ranks alone with ⟨final, passes, leads⟩
      exact passes.trans leads.firstUnbeaten.symm

theorem exists_foldl_challenge (beats : α → α → Bool) (entries : List α) :
    (entries = [] ∧ entries.foldl (challenge beats) none = none) ∨
      ∃ best ∈ entries, entries.foldl (challenge beats) none = some best := by
  induction entries using List.reverseRecOn with
  | nil => exact .inl ⟨rfl, rfl⟩
  | append_singleton before next induction =>
      right
      rw [List.foldl_append, List.foldl_cons, List.foldl_nil]
      rcases induction with ⟨rfl, nothing⟩ | ⟨best, member, found⟩
      · exact ⟨next, by simp, rfl⟩
      · rw [found]
        cases wins : beats next best with
        | true => exact ⟨next, by simp, by simp [challenge, wins]⟩
        | false => exact ⟨best, List.mem_append_left _ member, by simp [challenge, wins]⟩

end StreamQuery
