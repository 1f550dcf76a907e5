import Mathlib.Data.List.Induction
import StreamQuery.Proofs.Cache.RecentUse
namespace StreamQuery

/-! What a cache holds after any number of calls, one after the other: the texts used last. A use
is a call for a text that compiles, whether its plan was kept or had to be made. -/

inductive CacheCall where
  | get (text : String)
  | clear
deriving DecidableEq

/-- The texts asked for since the last clear, the latest first. -/
def CacheCall.gotten (calls : List CacheCall) : List String :=
  calls.foldl (fun texts => fun | .get text => text :: texts | .clear => []) []

example : CacheCall.gotten [.get "a", .clear, .get "b", .get "c"] = ["c", "b"] := by decide

theorem CacheCall.gotten_concat (calls : List CacheCall) (call : CacheCall) :
    gotten (calls ++ [call]) =
      match call with
      | .get text => text :: gotten calls
      | .clear => [] := by
  cases call <;> simp [gotten]

/-- The calls among these that were uses, again the latest first. -/
def CacheCall.used (compile : String → Except QueryError Plan) (calls : List CacheCall) :
    List String :=
  (gotten calls).filter fun text => (compile text).isOk

namespace PlanCache

def call (compile : String → Except QueryError Plan) (cache : PlanCache) : CacheCall → PlanCache
  | .get text => (cache.getOrCompile compile text).2
  | .clear => cache.clear

def after (size : Nat) (compile : String → Except QueryError Plan) (calls : List CacheCall) :
    PlanCache :=
  calls.foldl (call compile) (.ofSize size)

variable {compile : String → Except QueryError Plan} {cache : PlanCache}

theorem after_concat (size : Nat) (compile : String → Except QueryError Plan)
    (calls : List CacheCall) (last : CacheCall) :
    after size compile (calls ++ [last]) = (after size compile calls).call compile last := by
  simp [after]

/-! One call. -/

theorem InOrder.getOrCompile (inOrder : cache.InOrder compile) (text : String) :
    (cache.getOrCompile compile text).2.InOrder compile := by
  cases found : cache.find? text with
  | some hit =>
      rw [getOrCompile_of_some found]
      exact inOrder.lookUp text
  | none =>
      rw [getOrCompile_of_none found]
      exact (inOrder.lookUp text).keep text

theorem InOrder.getOrCompile_result (inOrder : cache.InOrder compile) (text : String) :
    (cache.getOrCompile compile text).1 = compile text := by
  cases found : cache.find? text with
  | some hit =>
      rw [getOrCompile_of_some found, inOrder.compile_of_some found]
  | none => rw [getOrCompile_of_none found]

@[simp] theorem capacity_getOrCompile (cache : PlanCache)
    (compile : String → Except QueryError Plan) (text : String) :
    (cache.getOrCompile compile text).2.capacity = cache.capacity := by
  cases found : cache.find? text with
  | some hit => rw [getOrCompile_of_some found, capacity_lookUp]
  | none => rw [getOrCompile_of_none found, capacity_keep, capacity_lookUp]

theorem InOrder.recentTexts_getOrCompile (inOrder : cache.InOrder compile) (text : String) :
    (cache.getOrCompile compile text).2.recentTexts =
      if (compile text).isOk then RecentTexts.use cache.capacity text cache.recentTexts
      else cache.recentTexts := by
  cases found : cache.find? text with
  | some hit =>
      rw [getOrCompile_of_some found, inOrder.compile_of_some found]
      exact inOrder.recentTexts_of_hit found
  | none =>
      rw [getOrCompile_of_none found]
      cases compiles : compile text with
      | error error => rw [PlanCache.keep, recentTexts, byRecency_of_miss found]; rfl
      | ok plan =>
          rw [PlanCache.keep, (inOrder.lookUp text).recentTexts_store compiles (missing_after_miss found),
            capacity_lookUp, recentTexts, byRecency_of_miss found]
          rfl

theorem InOrder.entries_of_failure (inOrder : cache.InOrder compile)
    (fails : compile text = .error error) :
    (cache.getOrCompile compile text).2.entries = cache.entries := by
  cases found : cache.find? text with
  | some hit =>
      rw [inOrder.compile_of_some found] at fails
      cases fails
  | none =>
      rw [getOrCompile_of_none found, fails, lookUp_of_none found]
      rfl

/-! Hits and misses, and what the parser is asked for. -/

theorem recentTexts_of_empty (empty : cache.entries = []) : cache.recentTexts = [] := by
  simp [recentTexts, byRecency, empty]

theorem recentTexts_of_some (found : cache.find? text = some hit) : text ∈ cache.recentTexts := by
  rcases find?_eq_some found with ⟨member, rfl⟩
  exact mem_recentTexts.mpr (List.mem_map_of_mem member)

theorem recentTexts_of_none (missing : cache.find? text = none) : text ∉ cache.recentTexts :=
  fun member => find?_eq_none.mp missing (mem_recentTexts.mp member)

theorem counts_getOrCompile (cache : PlanCache) (compile : String → Except QueryError Plan)
    (text : String) :
    (cache.getOrCompile compile text).2.hits =
        cache.hits + (if text ∈ cache.recentTexts then 1 else 0) ∧
      (cache.getOrCompile compile text).2.misses =
        cache.misses + (if text ∈ cache.recentTexts then 0 else 1) := by
  cases found : cache.find? text with
  | some hit =>
      simp only [if_pos (recentTexts_of_some found), getOrCompile_of_some found,
        lookUp_of_some found, Nat.add_zero, and_self]
  | none =>
      simp only [if_neg (recentTexts_of_none found), getOrCompile_of_none found,
        lookUp_of_none found, hits_keep, misses_keep, Nat.add_zero, and_self]

/-- A parser that also writes down what it is asked for. -/
def noted (parse : String → Except QueryError Select) (text : String) :
    StateM (List String) (Except QueryError Select) := do
  modify fun asked => asked ++ [text]
  return parse text

/-- The parser is asked for what is not kept, once, and for nothing else. -/
theorem getOrCompileM_noted (cache : PlanCache) (parse : String → Except QueryError Select)
    (metadata : Metadata) (text : String) (asked : List String) :
    (cache.getOrCompileM (Plan.ofTextM (noted parse) metadata) text).run asked =
      (cache.getOrCompile (Plan.ofText parse metadata) text,
        if text ∈ cache.recentTexts then asked else asked ++ [text]) := by
  cases found : cache.find? text with
  | some hit =>
      rw [if_pos (recentTexts_of_some found), getOrCompile_of_some found]
      simp only [getOrCompileM, lookUp_of_some found]
      rfl
  | none =>
      rw [if_neg (recentTexts_of_none found), getOrCompile_of_none found]
      simp only [getOrCompileM, lookUp_of_none found]
      rfl

/-! Any number of calls. -/

theorem inOrder_after (size : Nat) (compile : String → Except QueryError Plan)
    (calls : List CacheCall) : (after size compile calls).InOrder compile := by
  induction calls using List.reverseRecOn with
  | nil => exact inOrder_ofSize size
  | append_singleton calls last induction =>
      rw [after_concat]
      cases last with
      | get text => exact induction.getOrCompile text
      | clear => exact induction.clear

theorem capacity_after (size : Nat) (compile : String → Except QueryError Plan)
    (calls : List CacheCall) : (after size compile calls).capacity = max size 1 := by
  induction calls using List.reverseRecOn with
  | nil => rfl
  | append_singleton calls last induction =>
      rw [after_concat]
      cases last with
      | get text => exact (capacity_getOrCompile _ compile text).trans induction
      | clear => exact induction

theorem recentTexts_after (size : Nat) (compile : String → Except QueryError Plan)
    (calls : List CacheCall) :
    (after size compile calls).recentTexts =
      (RecentTexts.ofUses (CacheCall.used compile calls)).take (max size 1) := by
  induction calls using List.reverseRecOn with
  | nil =>
      have empty : (after size compile []).entries = [] := rfl
      simp [recentTexts_of_empty empty, CacheCall.used, CacheCall.gotten, RecentTexts.ofUses]
  | append_singleton calls last induction =>
      rw [after_concat, CacheCall.used, CacheCall.gotten_concat]
      cases last with
      | clear =>
          have empty : ((after size compile calls).call compile .clear).entries = [] := rfl
          simp [recentTexts_of_empty empty, RecentTexts.ofUses]
      | get text =>
          have inOrder := inOrder_after size compile calls
          have room : 0 < max size 1 := capacity_after size compile calls ▸ inOrder.room
          simp only [call, inOrder.recentTexts_getOrCompile, capacity_after, induction]
          rw [List.filter_cons, ← CacheCall.used]
          split
          · rw [RecentTexts.use_take (RecentTexts.ofUses_nodup _) room]
            rfl
          · rfl

theorem counts_after (size : Nat) (compile : String → Except QueryError Plan)
    (calls : List CacheCall) :
    (after size compile calls).hits + (after size compile calls).misses =
      (CacheCall.gotten calls).length := by
  induction calls using List.reverseRecOn with
  | nil => rfl
  | append_singleton calls last induction =>
      rw [after_concat, CacheCall.gotten_concat]
      cases last with
      | clear => rfl
      | get text =>
          rcases counts_getOrCompile (after size compile calls) compile text with ⟨hits, misses⟩
          simp only [call, hits, misses, List.length_cons]
          split <;> omega

/-- After any calls the cache holds the texts used last, as many as it has room for, each with the
plan it compiles to. One more call gives what the text compiles to; if that is an error, all
entries stay as they are. A text that is kept is a hit and not parsed, any other a miss and parsed
once. -/
theorem getOrCompile_refines_recentTexts (parse : String → Except QueryError Select)
    (metadata : Metadata) (size : Nat) (calls : List CacheCall) (text : String)
    (asked : List String) :
    let compile := Plan.ofText parse metadata
    let cache := after size compile calls
    let next := after size compile (calls ++ [.get text])
    cache.recentTexts =
        (RecentTexts.ofUses (CacheCall.used compile calls)).take (max size 1) ∧
      (∀ entry ∈ cache.entries, compile entry.text = .ok entry.plan) ∧
      cache.hits + cache.misses = (CacheCall.gotten calls).length ∧
      (∀ error, compile text = .error error → next.entries = cache.entries) ∧
      (cache.getOrCompileM (Plan.ofTextM (noted parse) metadata) text).run asked =
        ((compile text, next), if text ∈ cache.recentTexts then asked else asked ++ [text]) ∧
      next.hits = cache.hits + (if text ∈ cache.recentTexts then 1 else 0) ∧
      next.misses = cache.misses + (if text ∈ cache.recentTexts then 0 else 1) := by
  intro compile cache next
  have inOrder : cache.InOrder compile := inOrder_after size compile calls
  have last : next = (cache.getOrCompile compile text).2 := after_concat size compile calls _
  have result : cache.getOrCompile compile text = (compile text, next) :=
    Prod.ext (inOrder.getOrCompile_result text) last.symm
  rw [getOrCompileM_noted, result, last]
  exact ⟨recentTexts_after size compile calls, inOrder.compiled, counts_after size compile calls,
    fun _ fails => inOrder.entries_of_failure fails, rfl, counts_getOrCompile cache compile text⟩

end PlanCache

end StreamQuery
