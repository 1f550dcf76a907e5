import StreamQuery.Stream.Feed
namespace StreamQuery

/-! Running a feed. The clock moves only when nothing else can happen, and then straight to the
next deadline. -/

/-- The sources that a run reads. Tables and scripts can be opened again and again, a single stream
once, under any name. -/
inductive Sources where
  | named (scripts : List (String × Script)) (tables : List (String × List Value))
  | single (script : Script) (opened : Bool)

namespace Sources

def findNamed (scripts : List (String × Script)) (tables : List (String × List Value))
    (name : String) : Except QueryError Script :=
  match scripts.find? (·.1 == name), tables.find? (·.1 == name) with
  | some (_, script), _ => .ok script
  | none, some (_, values) => .ok (.ofValues values)
  | none, none => .error (.source name "unknown source")

def request (sources : Sources) (name : String) : Except QueryError Script × Sources :=
  match sources with
  | .named scripts tables => (findNamed scripts tables name, sources)
  | .single script false => (.ok script, .single script true)
  | .single script true =>
      (.error (.source name "input stream already consumed"), .single script true)

end Sources

/-- The state of a run: the clock, the sources, and the names opened so far, the latest first. -/
structure World where
  now : Nat
  sources : Sources
  opened : List String

namespace World

def start (sources : Sources) : World :=
  ⟨0, sources, []⟩

def request (world : World) (name : String) : Except QueryError Script × World :=
  let (answer, sources) := world.sources.request name
  (answer, { world with sources, opened := name :: world.opened })

def advance (world : World) (deadline : Nat) : World :=
  { world with now := max deadline world.now }

end World

/-- What a run shows: the items with the instants at which they came, the instant of the end if
there is one, and the state afterwards. -/
structure Run (α : Type) where
  items : List (Nat × Except QueryError α)
  ended : Option Nat
  world : World

namespace Run

def cons (now : Nat) (item : Except QueryError α) (run : Run α) : Run α :=
  { run with items := (now, item) :: run.items }

end Run

/-- Asks for items to the end, or until so many have come. -/
def Feed.run (wanted : Option Nat) : Feed α → World → Run α
  | .finished, world => ⟨[], some world.now, world⟩
  | .item entry rest, world =>
      match wanted with
      | some (count + 2) => (Feed.run (some (count + 1)) (rest world.now) world).cons world.now entry
      | some _ => ⟨[(world.now, entry)], none, world⟩
      | none => (Feed.run none (rest world.now) world).cons world.now entry
  | .waiting deadline resume, world =>
      let world := world.advance deadline
      Feed.run wanted (resume world.now) world
  | .opening name next, world =>
      let (answer, world) := world.request name
      Feed.run wanted (next answer) world
  | .silent, world => ⟨[], none, world⟩

def Opening.run : Opening α → World → α × World
  | .done value, world => (value, world)
  | .opening name next, world =>
      let (answer, world) := world.request name
      (next answer).run world

def Task.run : Task α → World → Option α × World
  | .done value, world => (some value, world)
  | .waiting deadline resume, world =>
      let world := world.advance deadline
      (resume world.now).run world
  | .opening name next, world =>
      let (answer, world) := world.request name
      (next answer).run world
  | .stuck, world => (none, world)

namespace Stream

def run (wanted : Option Nat) (opening : Opening (Stream α)) (world : World) : Run α :=
  let (stream, world) := opening.run world
  if wanted = some 0 then ⟨[], none, world⟩ else Feed.run wanted (stream world.now) world

end Stream

end StreamQuery
