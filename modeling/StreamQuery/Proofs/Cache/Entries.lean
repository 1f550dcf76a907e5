import Mathlib.Data.List.Nodup
import StreamQuery.Plan.Cache
namespace StreamQuery

/-! The two halves of a call, the lookup and the storing of a new plan, keep a cache in order, each
for itself. Nothing is assumed about what happens in between. -/

namespace PlanCache

/-- Every text has one entry and every entry a stamp of its own, the plans are those of their texts,
and there is room for all of them. -/
structure InOrder (compile : String → Except QueryError Plan) (cache : PlanCache) : Prop where
  texts : (cache.entries.map (·.text)).Nodup
  stamps : (cache.entries.map (·.lastAccess)).Nodup
  counted : ∀ entry ∈ cache.entries, entry.lastAccess ≤ cache.accesses
  compiled : ∀ entry ∈ cache.entries, compile entry.text = .ok entry.plan
  room : 0 < cache.capacity
  fits : cache.size ≤ cache.capacity

variable {compile : String → Except QueryError Plan} {cache : PlanCache}

theorem inOrder_ofSize (size : Nat) : (ofSize size).InOrder compile where
  texts := List.nodup_nil
  stamps := List.nodup_nil
  counted _ member := nomatch member
  compiled _ member := nomatch member
  room := Nat.lt_of_lt_of_le Nat.zero_lt_one (Nat.le_max_right size 1)
  fits := Nat.zero_le _

theorem InOrder.clear (inOrder : cache.InOrder compile) : cache.clear.InOrder compile where
  texts := List.nodup_nil
  stamps := List.nodup_nil
  counted _ member := nomatch member
  compiled _ member := nomatch member
  room := inOrder.room
  fits := Nat.zero_le _

theorem InOrder.eq_of_text_eq (inOrder : cache.InOrder compile) (first : entry ∈ cache.entries)
    (second : other ∈ cache.entries) (same : entry.text = other.text) : entry = other :=
  List.inj_on_of_nodup_map inOrder.texts first second same

theorem InOrder.eq_of_lastAccess_eq (inOrder : cache.InOrder compile)
    (first : entry ∈ cache.entries) (second : other ∈ cache.entries)
    (same : entry.lastAccess = other.lastAccess) : entry = other :=
  List.inj_on_of_nodup_map inOrder.stamps first second same

/-! Looking up. -/

theorem find?_eq_some (found : cache.find? text = some entry) :
    entry ∈ cache.entries ∧ entry.text = text :=
  ⟨List.mem_of_find?_eq_some found, by simpa using List.find?_some found⟩

theorem find?_eq_none : cache.find? text = none ↔ text ∉ cache.entries.map (·.text) := by
  simp [find?]

def touch (now : Nat) (text : String) (entry : CacheEntry) : CacheEntry :=
  if entry.text == text then { entry with lastAccess := now } else entry

@[simp] theorem touch_text (now : Nat) (text : String) (entry : CacheEntry) :
    (touch now text entry).text = entry.text := by
  simp only [touch]
  split <;> rfl

@[simp] theorem touch_plan (now : Nat) (text : String) (entry : CacheEntry) :
    (touch now text entry).plan = entry.plan := by
  simp only [touch]
  split <;> rfl

theorem touch_of_eq {entry : CacheEntry} (now : Nat) :
    touch now entry.text entry = { entry with lastAccess := now } := by
  simp [touch]

theorem touch_of_ne {entry : CacheEntry} (now : Nat) (different : entry.text ≠ text) :
    touch now text entry = entry := by
  simp [touch, different]

theorem lookUp_of_some (found : cache.find? text = some entry) :
    cache.lookUp text = (some entry.plan, { cache with
      entries := cache.entries.map (touch (cache.accesses + 1) text)
      accesses := cache.accesses + 1
      hits := cache.hits + 1 }) := by
  simp only [lookUp, found]
  rfl

theorem lookUp_of_none (missing : cache.find? text = none) :
    cache.lookUp text =
      (none, { cache with accesses := cache.accesses + 1, misses := cache.misses + 1 }) := by
  simp only [lookUp, missing]

theorem InOrder.touch_lastAccess_inj (inOrder : cache.InOrder compile)
    (first : entry ∈ cache.entries) (second : other ∈ cache.entries)
    (same : (touch (cache.accesses + 1) text entry).lastAccess =
      (touch (cache.accesses + 1) text other).lastAccess) : entry = other := by
  have stamp := inOrder.counted entry first
  have otherStamp := inOrder.counted other second
  by_cases isFirst : entry.text = text
  · by_cases isSecond : other.text = text
    · exact inOrder.eq_of_text_eq first second (isFirst.trans isSecond.symm)
    · subst isFirst
      rw [touch_of_eq, touch_of_ne _ isSecond] at same
      dsimp only at same
      omega
  · by_cases isSecond : other.text = text
    · subst isSecond
      rw [touch_of_eq, touch_of_ne _ isFirst] at same
      dsimp only at same
      omega
    · rw [touch_of_ne _ isFirst, touch_of_ne _ isSecond] at same
      exact inOrder.eq_of_lastAccess_eq first second same

theorem InOrder.lookUp (inOrder : cache.InOrder compile) (text : String) :
    (cache.lookUp text).2.InOrder compile := by
  cases found : cache.find? text with
  | none =>
      rw [lookUp_of_none found]
      exact { inOrder with
        counted := fun entry member => Nat.le_succ_of_le (inOrder.counted entry member) }
  | some hit =>
      rw [lookUp_of_some found]
      constructor
      case texts => simpa [Function.comp_def] using inOrder.texts
      case stamps =>
        rw [List.map_map]
        exact inOrder.stamps.of_map.map_on fun entry first other second =>
          inOrder.touch_lastAccess_inj first second
      case counted =>
        intro entry member
        rcases List.mem_map.mp member with ⟨old, among, rfl⟩
        have stamp := inOrder.counted old among
        simp only [touch]
        split
        · exact Nat.le_refl _
        · exact Nat.le_succ_of_le stamp
      case compiled =>
        intro entry member
        rcases List.mem_map.mp member with ⟨old, among, rfl⟩
        rw [touch_text, touch_plan]
        exact inOrder.compiled old among
      case room => exact inOrder.room
      case fits => simpa [size] using inOrder.fits

theorem InOrder.compile_of_some (inOrder : cache.InOrder compile)
    (found : cache.find? text = some hit) : compile text = .ok hit.plan := by
  rcases find?_eq_some found with ⟨member, rfl⟩
  exact inOrder.compiled hit member

theorem InOrder.compile_of_hit (inOrder : cache.InOrder compile)
    (hit : (cache.lookUp text).1 = some plan) : compile text = .ok plan := by
  cases found : cache.find? text with
  | none =>
      rw [lookUp_of_none found] at hit
      cases hit
  | some entry =>
      rw [lookUp_of_some found] at hit
      cases hit
      exact inOrder.compile_of_some found

/-! Making room. -/

theorem oldest?_isSome {entries : List CacheEntry} (some : entries ≠ []) :
    (oldest? entries).isSome := by
  cases entries with
  | nil => exact (some rfl).elim
  | cons entry entries => rfl

theorem oldest?_spec {entries : List CacheEntry} (found : oldest? entries = some oldest) :
    oldest ∈ entries ∧ ∀ entry ∈ entries, oldest.lastAccess ≤ entry.lastAccess := by
  induction entries generalizing oldest with
  | nil => cases found
  | cons entry entries induction =>
      have unfolded : leastRecent entry (oldest? entries) = oldest := Option.some.inj found
      cases rest : oldest? entries with
      | none =>
          rw [rest] at unfolded
          subst unfolded
          have none : entries = [] := by
            by_contra some
            have := oldest?_isSome some
            rw [rest] at this
            cases this
          subst none
          exact ⟨List.mem_cons_self, fun other member => by
            rw [List.mem_singleton.mp member]
            exact Nat.le_refl _⟩
      | some other =>
          rcases induction rest with ⟨member, least⟩
          rw [rest] at unfolded
          simp only [leastRecent] at unfolded
          split at unfolded
          · next older =>
              subst unfolded
              exact ⟨List.mem_cons_of_mem entry member,
                List.forall_mem_cons.mpr ⟨Nat.le_of_lt older, least⟩⟩
          · next newer =>
              subst unfolded
              refine ⟨List.mem_cons_self, List.forall_mem_cons.mpr ⟨Nat.le_refl _, ?_⟩⟩
              intro third among
              exact Nat.le_trans (Nat.le_of_not_lt newer) (least third among)

theorem evict_sublist (entries : List CacheEntry) : (evict entries).Sublist entries := by
  simp only [evict]
  split
  · exact List.filter_sublist
  · exact List.Sublist.refl _

theorem length_evict_lt {entries : List CacheEntry} (some : entries ≠ []) :
    (evict entries).length < entries.length := by
  rcases Option.isSome_iff_exists.mp (oldest?_isSome some) with ⟨oldest, found⟩
  simp only [evict, found]
  apply List.length_filter_lt_length_iff_exists.mpr
  exact ⟨oldest, (oldest?_spec found).1, by simp⟩

/-! Storing. -/

def kept (cache : PlanCache) (text : String) : List CacheEntry :=
  if (cache.find? text).isNone && cache.capacity ≤ cache.size then evict cache.entries
  else cache.entries

theorem store_eq (cache : PlanCache) (text : String) (plan : Plan) :
    cache.store text plan = { cache with
      entries := (cache.kept text).filter (fun entry => entry.text != text) ++
        [⟨text, plan, cache.accesses + 1⟩]
      accesses := cache.accesses + 1 } :=
  rfl

theorem kept_sublist (cache : PlanCache) (text : String) :
    (cache.kept text).Sublist cache.entries := by
  simp only [kept]
  split
  · exact evict_sublist _
  · exact List.Sublist.refl _

theorem kept_of_some (found : cache.find? text = some entry) :
    cache.kept text = cache.entries := by
  simp [kept, found]

theorem kept_of_full (missing : cache.find? text = none) (full : cache.capacity ≤ cache.size) :
    cache.kept text = evict cache.entries := by
  simp [kept, missing, full]

theorem kept_of_free (missing : cache.find? text = none) (free : cache.size < cache.capacity) :
    cache.kept text = cache.entries := by
  simp [kept, missing, Nat.not_le_of_lt free]

theorem InOrder.length_others_lt (inOrder : cache.InOrder compile) (text : String) :
    ((cache.kept text).filter fun entry => entry.text != text).length < cache.capacity := by
  cases found : cache.find? text with
  | some hit =>
      rcases find?_eq_some found with ⟨member, same⟩
      rw [kept_of_some found]
      apply Nat.lt_of_lt_of_le _ inOrder.fits
      exact List.length_filter_lt_length_iff_exists.mpr ⟨hit, member, by simp [same]⟩
  | none =>
      apply Nat.lt_of_le_of_lt (List.length_filter_le _ _)
      by_cases full : cache.capacity ≤ cache.size
      · have some : cache.entries ≠ [] :=
          List.ne_nil_of_length_pos (Nat.lt_of_lt_of_le inOrder.room full)
        rw [kept_of_full found full]
        exact Nat.lt_of_lt_of_le (length_evict_lt some) inOrder.fits
      · have free := Nat.lt_of_not_le full
        rw [kept_of_free found free]
        exact free

theorem InOrder.store (inOrder : cache.InOrder compile) (compiles : compile text = .ok plan) :
    (cache.store text plan).InOrder compile := by
  have others : ((cache.kept text).filter fun entry => entry.text != text).Sublist cache.entries :=
    List.filter_sublist.trans (cache.kept_sublist text)
  rw [store_eq]
  constructor
  case texts =>
    rw [List.map_append, List.nodup_append]
    refine ⟨inOrder.texts.sublist (others.map _), List.nodup_singleton _, ?_⟩
    simp only [List.map_cons, List.map_nil, List.mem_singleton]
    rintro other member _ rfl rfl
    rcases List.mem_map.mp member with ⟨entry, among, same⟩
    simpa [same] using (List.mem_filter.mp among).2
  case stamps =>
    rw [List.map_append, List.nodup_append]
    refine ⟨inOrder.stamps.sublist (others.map _), List.nodup_singleton _, ?_⟩
    simp only [List.map_cons, List.map_nil, List.mem_singleton]
    rintro other member _ rfl rfl
    rcases List.mem_map.mp member with ⟨entry, among, same⟩
    have stamp := inOrder.counted entry (others.subset among)
    omega
  case counted =>
    refine List.forall_mem_append.mpr ⟨?_, List.forall_mem_singleton.mpr (Nat.le_refl _)⟩
    intro entry member
    exact Nat.le_succ_of_le (inOrder.counted entry (others.subset member))
  case compiled =>
    refine List.forall_mem_append.mpr ⟨?_, List.forall_mem_singleton.mpr compiles⟩
    intro entry member
    exact inOrder.compiled entry (others.subset member)
  case room => exact inOrder.room
  case fits =>
    have less := inOrder.length_others_lt text
    simp only [size, List.length_append, List.length_singleton]
    omega

theorem InOrder.keep (inOrder : cache.InOrder compile) (text : String) :
    (cache.keep text (compile text)).InOrder compile := by
  cases compiles : compile text with
  | ok plan => exact inOrder.store compiles
  | error error => exact inOrder

/-! What else the two halves change. -/

@[simp] theorem capacity_lookUp (cache : PlanCache) (text : String) :
    (cache.lookUp text).2.capacity = cache.capacity := by
  simp only [lookUp]
  split <;> rfl

@[simp] theorem capacity_keep (cache : PlanCache) (text : String)
    (compiled : Except QueryError Plan) : (cache.keep text compiled).capacity = cache.capacity := by
  cases compiled <;> rfl

theorem hits_add_misses_lookUp (cache : PlanCache) (text : String) :
    (cache.lookUp text).2.hits + (cache.lookUp text).2.misses = cache.hits + cache.misses + 1 := by
  simp only [lookUp]
  split <;> simp only <;> omega

@[simp] theorem hits_keep (cache : PlanCache) (text : String)
    (compiled : Except QueryError Plan) : (cache.keep text compiled).hits = cache.hits := by
  cases compiled <;> rfl

@[simp] theorem misses_keep (cache : PlanCache) (text : String)
    (compiled : Except QueryError Plan) : (cache.keep text compiled).misses = cache.misses := by
  cases compiled <;> rfl

/-! A call is a lookup and, after a miss, the keeping of what the text compiles to. -/

theorem getOrCompile_of_some (found : cache.find? text = some hit) :
    cache.getOrCompile compile text = (.ok hit.plan, (cache.lookUp text).2) := by
  simp only [getOrCompile, getOrCompileM, lookUp_of_some found]
  rfl

theorem getOrCompile_of_none (missing : cache.find? text = none) :
    cache.getOrCompile compile text =
      (compile text, (cache.lookUp text).2.keep text (compile text)) := by
  simp only [getOrCompile, getOrCompileM, lookUp_of_none missing]
  rfl

end PlanCache

end StreamQuery
