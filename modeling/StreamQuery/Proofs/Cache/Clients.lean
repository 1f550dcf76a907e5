import Mathlib.Logic.Function.Basic
import StreamQuery.Proofs.Cache.Entries
namespace StreamQuery

/-! A cache that clients share. Each half of a call takes the cache for itself: the lookup, and the
keeping of a plan that had to be made. In between, while the text is compiled, the others go on;
they may look up the same text, keep a plan for it, have entries evicted, or clear the cache. -/

structure SharedCache (Client : Type) where
  plans : PlanCache
  /-- The text that a client has missed and is compiling. -/
  compiling : Client → Option String

inductive ClientEvent (Client : Type) where
  | lookedUp (client : Client) (text : String)
  | returned (client : Client) (text : String) (result : Except QueryError Plan)
  | cleared

/-- The lookups since the last clear. -/
def ClientEvent.lookups (events : List (ClientEvent Client)) : Nat :=
  events.foldl (fun count => fun
    | .lookedUp _ _ => count + 1
    | .returned _ _ _ => count
    | .cleared => 0) 0

namespace SharedCache

def ofSize (Client : Type) (size : Nat) : SharedCache Client :=
  ⟨.ofSize size, fun _ => none⟩

variable {Client : Type} [DecidableEq Client]

/-- What is done by one who holds the cache, with the events that it leaves. -/
inductive Step (compile : String → Except QueryError Plan) (shared : SharedCache Client) :
    List (ClientEvent Client) → SharedCache Client → Prop
  | hit : shared.compiling client = none → (shared.plans.lookUp text).1 = some plan →
      Step compile shared [.lookedUp client text, .returned client text (.ok plan)]
        ⟨(shared.plans.lookUp text).2, shared.compiling⟩
  | missed : shared.compiling client = none → (shared.plans.lookUp text).1 = none →
      Step compile shared [.lookedUp client text]
        ⟨(shared.plans.lookUp text).2, Function.update shared.compiling client (some text)⟩
  | compiled : shared.compiling client = some text →
      Step compile shared [.returned client text (compile text)]
        ⟨shared.plans.keep text (compile text), Function.update shared.compiling client none⟩
  | cleared : Step compile shared [.cleared] ⟨shared.plans.clear, shared.compiling⟩

inductive Reaches (compile : String → Except QueryError Plan) (size : Nat) :
    List (ClientEvent Client) → SharedCache Client → Prop
  | start : Reaches compile size [] (ofSize Client size)
  | step : Reaches compile size events shared → Step compile shared following next →
      Reaches compile size (events ++ following) next

variable {compile : String → Except QueryError Plan} {shared next : SharedCache Client}

/-! One step. -/

theorem Step.inOrder (step : Step compile shared following next)
    (inOrder : shared.plans.InOrder compile) : next.plans.InOrder compile := by
  cases step with
  | hit => exact inOrder.lookUp _
  | missed => exact inOrder.lookUp _
  | compiled => exact inOrder.keep _
  | cleared => exact inOrder.clear

theorem Step.capacity (step : Step compile shared following next) :
    next.plans.capacity = shared.plans.capacity := by
  cases step with
  | hit => exact shared.plans.capacity_lookUp _
  | missed => exact shared.plans.capacity_lookUp _
  | compiled => exact shared.plans.capacity_keep _ _
  | cleared => rfl

theorem Step.lookups (step : Step compile shared following next)
    (counted : shared.plans.hits + shared.plans.misses = ClientEvent.lookups events) :
    next.plans.hits + next.plans.misses = ClientEvent.lookups (events ++ following) := by
  cases step with
  | hit => simp [PlanCache.hits_add_misses_lookUp, counted, ClientEvent.lookups]
  | missed => simp [PlanCache.hits_add_misses_lookUp, counted, ClientEvent.lookups]
  | compiled => simp [counted, ClientEvent.lookups]
  | cleared => simp [PlanCache.clear, ClientEvent.lookups]

theorem Step.returned (step : Step compile shared following next)
    (inOrder : shared.plans.InOrder compile)
    (returned : .returned client text result ∈ following) : result = compile text := by
  cases step with
  | hit _ found =>
      simp only [List.mem_cons, reduceCtorEq, ClientEvent.returned.injEq, List.not_mem_nil,
        or_false, false_or] at returned
      rcases returned with ⟨_, rfl, rfl⟩
      exact (inOrder.compile_of_hit found).symm
  | missed => simp at returned
  | compiled =>
      simp only [List.mem_singleton, ClientEvent.returned.injEq] at returned
      rcases returned with ⟨_, rfl, rfl⟩
      rfl
  | cleared => simp at returned

/-! Any number of steps. -/

theorem Reaches.inOrder (reaches : Reaches compile size events shared) :
    shared.plans.InOrder compile := by
  induction reaches with
  | start => exact PlanCache.inOrder_ofSize size
  | step _ step induction => exact step.inOrder induction

theorem Reaches.capacity (reaches : Reaches compile size events shared) :
    shared.plans.capacity = max size 1 := by
  induction reaches with
  | start => rfl
  | step _ step induction => exact step.capacity.trans induction

theorem Reaches.lookups (reaches : Reaches compile size events shared) :
    shared.plans.hits + shared.plans.misses = ClientEvent.lookups events := by
  induction reaches with
  | start => rfl
  | step _ step induction => exact step.lookups induction

theorem Reaches.returned (reaches : Reaches compile size events shared)
    (returned : .returned client text result ∈ events) : result = compile text := by
  induction reaches with
  | start => cases returned
  | step reaches step induction =>
      rcases List.mem_append.mp returned with earlier | last
      · exact induction earlier
      · exact step.returned reaches.inOrder last

/-! A call can always go on. -/

theorem Reaches.exists_lookUp (reaches : Reaches compile size events shared)
    (idle : shared.compiling client = none) (text : String) :
    (∃ next, Step compile shared
      [.lookedUp client text, .returned client text (compile text)] next) ∨
    ∃ next, Step compile shared [.lookedUp client text] next ∧
      next.compiling client = some text := by
  cases found : (shared.plans.lookUp text).1 with
  | some plan =>
      rw [reaches.inOrder.compile_of_hit found]
      exact .inl ⟨_, .hit idle found⟩
  | none => exact .inr ⟨_, .missed idle found, Function.update_self ..⟩

/-- With nobody in between, the two halves are the whole call. -/
theorem step_getOrCompile (compile : String → Except QueryError Plan)
    (shared : SharedCache Client) {client : Client} (idle : shared.compiling client = none)
    (text : String) :
    let (result, plans) := shared.plans.getOrCompile compile text
    Step compile shared [.lookedUp client text, .returned client text result]
        ⟨plans, shared.compiling⟩ ∨
      ∃ middle, Step compile shared [.lookedUp client text] middle ∧
        Step compile middle [.returned client text result] ⟨plans, shared.compiling⟩ := by
  cases found : shared.plans.find? text with
  | some hit =>
      rw [PlanCache.getOrCompile_of_some found]
      exact .inl (.hit idle (by rw [PlanCache.lookUp_of_some found]))
  | none =>
      rw [PlanCache.getOrCompile_of_none found]
      let middle : SharedCache Client :=
        ⟨(shared.plans.lookUp text).2, Function.update shared.compiling client (some text)⟩
      have missed : Step compile shared [.lookedUp client text] middle :=
        .missed idle (by rw [PlanCache.lookUp_of_none found])
      have busy : middle.compiling client = some text := Function.update_self ..
      have compiled : Step compile middle [.returned client text (compile text)]
          ⟨middle.plans.keep text (compile text), _⟩ := .compiled busy
      have back : Function.update (Function.update shared.compiling client (some text)) client none
          = shared.compiling := by
        rw [Function.update_idem, ← idle, Function.update_eq_self]
      rw [back] at compiled
      exact .inr ⟨middle, missed, compiled⟩

/-- Whoever comes next, the plans that are kept are in order and counted, and every call returns
what its text compiles to: those that have returned did, and those that have not can. -/
theorem Reaches.calls_compile {size : Nat} {events : List (ClientEvent Client)}
    {shared : SharedCache Client} (parse : String → Except QueryError Select) (metadata : Metadata)
    (reaches : Reaches (Plan.ofText parse metadata) size events shared) :
    let compile := Plan.ofText parse metadata
    shared.plans.size ≤ max size 1 ∧
      (shared.plans.entries.map (·.lastAccess)).Nodup ∧
      (∀ entry ∈ shared.plans.entries, entry.lastAccess ≤ shared.plans.accesses) ∧
      (∀ entry ∈ shared.plans.entries, compile entry.text = .ok entry.plan) ∧
      shared.plans.hits + shared.plans.misses = ClientEvent.lookups events ∧
      (∀ client text result, .returned client text result ∈ events → result = compile text) ∧
      (∀ client text, shared.compiling client = some text → ∃ next,
        Step compile shared [.returned client text (compile text)] next) ∧
      ∀ client text, shared.compiling client = none →
        (∃ next, Step compile shared
          [.lookedUp client text, .returned client text (compile text)] next) ∨
        ∃ next, Step compile shared [.lookedUp client text] next ∧
          next.compiling client = some text := by
  intro compile
  have inOrder := reaches.inOrder
  have fits := inOrder.fits
  rw [reaches.capacity] at fits
  exact ⟨fits, inOrder.stamps, inOrder.counted, inOrder.compiled, reaches.lookups,
    fun _ _ _ => reaches.returned, fun _ _ busy => ⟨_, .compiled busy⟩,
    fun _ text idle => reaches.exists_lookUp idle text⟩

/-- Two clients miss one text and the cache is cleared between their halves. -/
theorem Reaches.calls_compile_cleared :
    let statement : Select := ⟨false, [.wildcard], none, [], none, [], none, [], none⟩
    let compile := Plan.ofText (fun _ => .ok statement) (Metadata.ofSettings Settings.default)
    ∃ events, ∃ shared : SharedCache Bool, Reaches compile 1 events shared ∧
      .returned true "select *" (compile "select *") ∈ events ∧
      shared.plans.size = 1 ∧ shared.plans.hits + shared.plans.misses = 0 := by
  intro statement compile
  have first : Reaches compile 1 _ _ :=
    .step .start (show Step compile _ [.lookedUp true "select *"] _ from .missed rfl rfl)
  have second : Reaches compile 1 _ _ :=
    .step first (show Step compile _ [.lookedUp false "select *"] _ from .missed rfl rfl)
  have third : Reaches compile 1 _ _ :=
    .step second (show Step compile _ [.returned true "select *" _] _ from .compiled rfl)
  have fourth : Reaches compile 1 _ _ := .step third .cleared
  have fifth : Reaches compile 1 _ _ :=
    .step fourth (show Step compile _ [.returned false "select *" _] _ from .compiled rfl)
  have last := calls_compile _ _ fifth
  refine ⟨_, _, fifth, ?_, ?_, last.2.2.2.2.1⟩
  · simp
  · exact Nat.le_antisymm last.1 (by decide +kernel)

end SharedCache

end StreamQuery
