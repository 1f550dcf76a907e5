import Mathlib.Data.List.Nodup
import StreamQuery.Proofs.Cache.Entries
namespace StreamQuery

/-! A cache is a list of texts, the latest used first: a use brings a text to the front, and what
does not fit falls off the end. Which texts are in it can be told from the calls alone. -/

namespace RecentTexts

def use (capacity : Nat) (text : String) (texts : List String) : List String :=
  (text :: texts.filter (· != text)).take capacity

def ofUses : List String → List String
  | [] => []
  | text :: earlier => text :: (ofUses earlier).filter (· != text)

example : ofUses ["b", "c", "b", "a", "c"] = ["b", "c", "a"] := by decide

theorem ofUses_nodup (uses : List String) : (ofUses uses).Nodup := by
  induction uses with
  | nil => exact List.nodup_nil
  | cons text earlier induction => exact List.nodup_cons.mpr ⟨by simp, induction.filter _⟩

theorem take_filter_take {texts : List String} (nodup : texts.Nodup) (text : String)
    (count : Nat) :
    ((texts.take (count + 1)).filter (· != text)).take count =
      (texts.filter (· != text)).take count := by
  induction texts generalizing count with
  | nil => rfl
  | cons first rest induction =>
      have parts := List.nodup_cons.mp nodup
      by_cases same : first = text
      · subst same
        have kept (part : List String) (among : part ⊆ rest) : part.filter (· != first) = part := by
          apply List.filter_eq_self.mpr
          intro other member
          have different : other ≠ first := fun same => parts.1 (same ▸ among member)
          simpa using different
        simp [kept _ (List.take_subset count rest), kept rest (List.Subset.refl rest), List.take_take]
      · cases count with
        | zero => rfl
        | succ count => simp [same, induction parts.2 count]

theorem use_take {texts : List String} (nodup : texts.Nodup) (room : 0 < capacity) (text : String) :
    use capacity text (texts.take capacity) = use capacity text texts := by
  cases capacity with
  | zero => cases room
  | succ count => simp only [use, List.take_succ_cons, take_filter_take nodup text count]

end RecentTexts

namespace PlanCache

def byRecency (cache : PlanCache) : List CacheEntry :=
  cache.entries.mergeSort fun entry other => other.lastAccess ≤ entry.lastAccess

def recentTexts (cache : PlanCache) : List String :=
  cache.byRecency.map (·.text)

def Descending (entries : List CacheEntry) : Prop :=
  entries.Pairwise fun entry other => other.lastAccess < entry.lastAccess

variable {compile : String → Except QueryError Plan} {cache : PlanCache}

theorem mem_byRecency : entry ∈ cache.byRecency ↔ entry ∈ cache.entries :=
  (List.mergeSort_perm _ _).mem_iff

theorem length_byRecency (cache : PlanCache) : cache.byRecency.length = cache.size :=
  (List.mergeSort_perm _ _).length_eq

theorem InOrder.byRecency_descending (inOrder : cache.InOrder compile) :
    Descending cache.byRecency := by
  have sorted : cache.byRecency.Pairwise fun entry other =>
      decide (other.lastAccess ≤ entry.lastAccess) = true := by
    apply List.pairwise_mergeSort
    · intro first second third
      simp only [decide_eq_true_eq]
      omega
    · intro first second
      simp only [Bool.or_eq_true, decide_eq_true_eq]
      omega
  have stamps : (cache.byRecency.map (·.lastAccess)).Nodup :=
    ((List.mergeSort_perm _ _).map _).nodup_iff.mpr inOrder.stamps
  refine (sorted.and (List.pairwise_map.mp stamps)).imp ?_
  rintro entry other ⟨later, different⟩
  exact Nat.lt_of_le_of_ne (of_decide_eq_true later) (Ne.symm different)

theorem InOrder.byRecency_eq (inOrder : cache.InOrder compile) {ranked : List CacheEntry}
    (members : ∀ entry, entry ∈ ranked ↔ entry ∈ cache.entries) (descending : Descending ranked) :
    cache.byRecency = ranked := by
  have nodup {entries : List CacheEntry} (descending : Descending entries) : entries.Nodup := by
    refine List.Pairwise.imp ?_ descending
    rintro entry _ later rfl
    exact Nat.lt_irrefl _ later
  have perm : cache.byRecency.Perm ranked :=
    (List.perm_ext_iff_of_nodup (nodup inOrder.byRecency_descending) (nodup descending)).mpr
      fun entry => mem_byRecency.trans (members entry).symm
  refine perm.eq_of_pairwise ?_ inOrder.byRecency_descending descending
  intro entry other _ _ later earlier
  exact absurd later (Nat.lt_asymm earlier)

/-! What a lookup and the storing of a plan do to the order. -/

theorem Descending.cons {entries : List CacheEntry} (descending : Descending entries)
    (counted : ∀ other ∈ entries, other.lastAccess ≤ cache.accesses)
    (stamped : entry.lastAccess = cache.accesses + 1) : Descending (entry :: entries) := by
  refine List.pairwise_cons.mpr ⟨?_, descending⟩
  intro other member
  have earlier := counted other member
  omega

theorem InOrder.byRecency_counted (inOrder : cache.InOrder compile) :
    ∀ entry ∈ cache.byRecency, entry.lastAccess ≤ cache.accesses :=
  fun entry member => inOrder.counted entry (mem_byRecency.mp member)

theorem InOrder.byRecency_of_hit (inOrder : cache.InOrder compile)
    (found : cache.find? text = some hit) :
    (cache.lookUp text).2.byRecency = { hit with lastAccess := cache.accesses + 1 } ::
      cache.byRecency.filter (fun entry => entry.text != text) := by
  rcases find?_eq_some found with ⟨among, rfl⟩
  apply (inOrder.lookUp hit.text).byRecency_eq
  · intro entry
    simp only [lookUp_of_some found, List.mem_cons, List.mem_filter, List.mem_map, mem_byRecency,
      bne_iff_ne]
    constructor
    · rintro (rfl | ⟨member, different⟩)
      · exact ⟨hit, among, touch_of_eq _⟩
      · exact ⟨entry, member, touch_of_ne _ different⟩
    · rintro ⟨old, member, rfl⟩
      by_cases same : old.text = hit.text
      · rw [inOrder.eq_of_text_eq member among same]
        exact .inl (touch_of_eq _)
      · rw [touch_of_ne _ same]
        exact .inr ⟨member, same⟩
  · apply Descending.cons (inOrder.byRecency_descending.filter _) _ rfl
    intro entry member
    exact inOrder.byRecency_counted entry (List.mem_filter.mp member).1

theorem byRecency_of_miss (missing : cache.find? text = none) :
    (cache.lookUp text).2.byRecency = cache.byRecency := by
  rw [lookUp_of_none missing]
  rfl

theorem InOrder.mem_evict (inOrder : cache.InOrder compile) (some : cache.entries ≠ [])
    (entry : CacheEntry) : entry ∈ cache.byRecency.dropLast ↔ entry ∈ evict cache.entries := by
  rcases Option.isSome_iff_exists.mp (oldest?_isSome some) with ⟨oldest, found⟩
  rcases oldest?_spec found with ⟨among, least⟩
  have nonempty : cache.byRecency ≠ [] := fun none =>
    absurd (none ▸ mem_byRecency.mpr among) List.not_mem_nil
  rcases List.eq_nil_or_concat cache.byRecency with none | ⟨front, last, split⟩
  · exact absurd none nonempty
  rw [List.concat_eq_append] at split
  have descending := inOrder.byRecency_descending
  rw [split] at descending
  have before := (List.pairwise_append.mp descending).2.2
  have ranked (other : CacheEntry) : other ∈ cache.entries ↔ other ∈ front ∨ other = last := by
    rw [← mem_byRecency, split, List.mem_append, List.mem_singleton]
  have isLast : oldest = last := by
    rcases (ranked oldest).mp among with earlier | isLast
    · have later := before oldest earlier last List.mem_cons_self
      have := least last ((ranked last).mpr (.inr rfl))
      omega
    · exact isLast
  subst isLast
  simp only [split, List.dropLast_concat, evict, found, List.mem_filter, bne_iff_ne]
  constructor
  · intro member
    refine ⟨(ranked entry).mpr (.inl member), ?_⟩
    intro same
    have equal := inOrder.eq_of_text_eq ((ranked entry).mpr (.inl member)) among same
    exact Nat.lt_irrefl _ (equal ▸ before entry member oldest List.mem_cons_self)
  · rintro ⟨member, different⟩
    rcases (ranked entry).mp member with earlier | rfl
    · exact earlier
    · exact absurd rfl different

def staying (cache : PlanCache) : List CacheEntry :=
  if cache.capacity ≤ cache.size then cache.byRecency.dropLast else cache.byRecency

theorem staying_sublist (cache : PlanCache) : cache.staying.Sublist cache.byRecency := by
  simp only [staying]
  split
  · exact List.dropLast_sublist _
  · exact List.Sublist.refl _

theorem InOrder.mem_staying (inOrder : cache.InOrder compile) (missing : cache.find? text = none)
    (entry : CacheEntry) : entry ∈ cache.staying ↔ entry ∈ cache.kept text := by
  by_cases full : cache.capacity ≤ cache.size
  · have some : cache.entries ≠ [] :=
      List.ne_nil_of_length_pos (Nat.lt_of_lt_of_le inOrder.room full)
    rw [kept_of_full missing full, staying, if_pos full]
    exact inOrder.mem_evict some entry
  · rw [kept_of_free missing (Nat.lt_of_not_le full), staying, if_neg full]
    exact mem_byRecency

theorem InOrder.byRecency_store (inOrder : cache.InOrder compile)
    (compiles : compile text = .ok plan) (missing : cache.find? text = none) :
    (cache.store text plan).byRecency = ⟨text, plan, cache.accesses + 1⟩ :: cache.staying := by
  apply (inOrder.store compiles).byRecency_eq
  · intro entry
    have others (member : entry ∈ cache.kept text) : entry.text ≠ text := by
      rintro rfl
      exact find?_eq_none.mp missing
        (List.mem_map_of_mem ((cache.kept_sublist entry.text).subset member))
    simp only [store_eq, List.mem_cons, List.mem_append, List.mem_filter, bne_iff_ne,
      List.not_mem_nil, or_false, inOrder.mem_staying missing]
    constructor
    · rintro (same | member)
      · exact .inr same
      · exact .inl ⟨member, others member⟩
    · rintro (⟨member, _⟩ | same)
      · exact .inr member
      · exact .inl same
  · apply Descending.cons (inOrder.byRecency_descending.sublist cache.staying_sublist) _ rfl
    intro entry member
    exact inOrder.byRecency_counted entry (cache.staying_sublist.subset member)

/-! The texts alone. -/

theorem mem_recentTexts : text ∈ cache.recentTexts ↔ text ∈ cache.entries.map (·.text) := by
  simp [recentTexts, mem_byRecency]

theorem length_recentTexts (cache : PlanCache) : cache.recentTexts.length = cache.size := by
  rw [recentTexts, List.length_map, length_byRecency]

theorem InOrder.recentTexts_of_hit (inOrder : cache.InOrder compile)
    (found : cache.find? text = some hit) :
    (cache.lookUp text).2.recentTexts =
      RecentTexts.use cache.capacity text cache.recentTexts := by
  rcases find?_eq_some found with ⟨among, rfl⟩
  have fits := inOrder.fits
  have among := mem_recentTexts.mpr (List.mem_map_of_mem (f := (·.text)) among)
  have less : (cache.recentTexts.filter (· != hit.text)).length < cache.recentTexts.length :=
    List.length_filter_lt_length_iff_exists.mpr ⟨hit.text, among, by simp⟩
  rw [length_recentTexts] at less
  rw [RecentTexts.use, List.take_of_length_le (by rw [List.length_cons]; omega), recentTexts,
    inOrder.byRecency_of_hit found, List.map_cons, recentTexts, List.filter_map]
  rfl

theorem InOrder.recentTexts_store (inOrder : cache.InOrder compile)
    (compiles : compile text = .ok plan) (missing : cache.find? text = none) :
    (cache.store text plan).recentTexts =
      RecentTexts.use cache.capacity text cache.recentTexts := by
  have fits := inOrder.fits
  have counted := length_recentTexts cache
  have absent : cache.recentTexts.filter (· != text) = cache.recentTexts := by
    apply List.filter_eq_self.mpr
    intro other member
    have different : other ≠ text := by
      rintro rfl
      exact find?_eq_none.mp missing (mem_recentTexts.mp member)
    simpa using different
  have stay : cache.staying.map (·.text) = cache.recentTexts.take (cache.capacity - 1) := by
    simp only [staying]
    split
    · next full =>
        rw [List.map_dropLast, List.dropLast_eq_take, ← recentTexts]
        congr 1
        omega
    · next free =>
        rw [← recentTexts, List.take_of_length_le (by omega)]
  obtain ⟨count, capacity⟩ : ∃ count, cache.capacity = count + 1 :=
    ⟨cache.capacity - 1, (Nat.sub_add_cancel inOrder.room).symm⟩
  rw [recentTexts, inOrder.byRecency_store compiles missing, List.map_cons, stay,
    RecentTexts.use, absent, capacity, List.take_succ_cons, Nat.add_sub_cancel]

theorem InOrder.missing_after_miss (missing : cache.find? text = none) :
    (cache.lookUp text).2.find? text = none := by
  rw [lookUp_of_none missing]
  exact missing

end PlanCache

end StreamQuery
