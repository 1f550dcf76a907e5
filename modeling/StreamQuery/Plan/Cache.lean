import StreamQuery.Plan.Compile
namespace StreamQuery

/-! A cache of plans by the texts of their statements. When it is full, the plan that has not been
used for the longest time makes room. Getting a plan takes two steps, between which the text is
compiled if need be: it is looked up, and a new plan is stored. -/

structure CacheEntry where
  text : String
  plan : Plan
  /-- The number of the latest access. -/
  lastAccess : Nat

structure PlanCache where
  /-- The plans that are kept, one at least. -/
  capacity : Nat
  entries : List CacheEntry
  /-- Accesses are numbered from one on. -/
  accesses : Nat
  hits : Nat
  misses : Nat

namespace PlanCache

def ofSize (size : Nat) : PlanCache :=
  ⟨max size 1, [], 0, 0, 0⟩

def defaultSize : Nat := 64

def size (cache : PlanCache) : Nat :=
  cache.entries.length

def find? (cache : PlanCache) (text : String) : Option CacheEntry :=
  cache.entries.find? fun entry => entry.text == text

/-- A hit counts as a use of the plan. -/
def lookUp (cache : PlanCache) (text : String) : Option Plan × PlanCache :=
  let now := cache.accesses + 1
  match cache.find? text with
  | some found =>
      let entries := cache.entries.map fun entry =>
        if entry.text == text then { entry with lastAccess := now } else entry
      (some found.plan, { cache with entries, accesses := now, hits := cache.hits + 1 })
  | none => (none, { cache with accesses := now, misses := cache.misses + 1 })

def leastRecent (entry : CacheEntry) : Option CacheEntry → CacheEntry
  | some other => if other.lastAccess < entry.lastAccess then other else entry
  | none => entry

def oldest? (entries : List CacheEntry) : Option CacheEntry :=
  entries.foldr (fun entry oldest => some (leastRecent entry oldest)) none

def evict (entries : List CacheEntry) : List CacheEntry :=
  match oldest? entries with
  | some oldest => entries.filter fun entry => entry.text != oldest.text
  | none => entries

def store (cache : PlanCache) (text : String) (plan : Plan) : PlanCache :=
  let now := cache.accesses + 1
  let kept :=
    if (cache.find? text).isNone && cache.capacity ≤ cache.size then evict cache.entries
    else cache.entries
  let others := kept.filter fun entry => entry.text != text
  { cache with entries := others ++ [⟨text, plan, now⟩], accesses := now }

/-- A text that does not compile is not kept. -/
def keep (cache : PlanCache) (text : String) : Except QueryError Plan → PlanCache
  | .ok plan => cache.store text plan
  | .error _ => cache

/-- The plan of the text. Compiling it may have effects of its own. -/
def getOrCompileM [Monad m] (cache : PlanCache) (compile : String → m (Except QueryError Plan))
    (text : String) : m (Except QueryError Plan × PlanCache) :=
  match cache.lookUp text with
  | (some plan, cache) => pure (.ok plan, cache)
  | (none, cache) => do
      let compiled ← compile text
      return (compiled, cache.keep text compiled)

def getOrCompile (cache : PlanCache) (compile : String → Except QueryError Plan) (text : String) :
    Except QueryError Plan × PlanCache :=
  Id.run (cache.getOrCompileM (fun text => pure (compile text)) text)

def clear (cache : PlanCache) : PlanCache :=
  { cache with entries := [], hits := 0, misses := 0 }

def hitRate (cache : PlanCache) : Double :=
  let lookups := cache.hits + cache.misses
  if lookups = 0 then Binary.zero false
  else (Binary.ofInt cache.hits : Double).divide (Binary.ofInt lookups)

end PlanCache

namespace Plan

/-- Statements come from a parser of texts. Parsing may have effects of its own. -/
def ofTextM [Monad m] (parse : String → m (Except QueryError Select)) (metadata : Metadata)
    (text : String) : m (Except QueryError Plan) := do
  let statement ← parse text
  return statement.bind (Select.compile metadata)

def ofText (parse : String → Except QueryError Select) (metadata : Metadata)
    (text : String) : Except QueryError Plan :=
  (parse text).bind (Select.compile metadata)

end Plan

end StreamQuery
