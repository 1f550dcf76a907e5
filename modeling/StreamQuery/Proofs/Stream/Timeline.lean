import StreamQuery.Stream.Run
namespace StreamQuery

/-! What a feed shows under a clock. The clock never goes back, a wait ends at its deadline or
later, an item may be taken any time after the one before it, and the environment may give any
answer when a source is opened. -/

namespace Task

inductive Yields : Task α → Nat → α → Nat → Prop
  | done (value : α) (now : Nat) : Yields (.done value) now value now
  | waiting : deadline ≤ resumed → now ≤ resumed →
      Yields (resume resumed) resumed value later →
      Yields (.waiting deadline resume) now value later
  | opening (answer : Except QueryError Script) : Yields (next answer) now value later →
      Yields (.opening name next) now value later

theorem Yields.le {task : Task α} (yields : task.Yields now value later) : now ≤ later := by
  induction yields with
  | done => exact Nat.le_refl _
  | waiting _ earlier _ induction => exact Nat.le_trans earlier induction
  | opening _ _ induction => exact induction

theorem Yields.of_bind {task : Task α} {next : α → Nat → Task β}
    (yields : (task.bind now next).Yields now result later) :
    ∃ value between, task.Yields now value between ∧
      (next value between).Yields between result later := by
  induction task generalizing now with
  | done value => exact ⟨value, now, .done value now, yields⟩
  | waiting deadline resume induction =>
      cases yields with
      | waiting reached earlier yields =>
          rcases induction _ yields with ⟨value, between, first, rest⟩
          exact ⟨value, between, .waiting reached earlier first, rest⟩
  | opening name answer induction =>
      cases yields with
      | opening script yields =>
          rcases induction _ yields with ⟨value, between, first, rest⟩
          exact ⟨value, between, .opening script first, rest⟩
  | stuck => cases yields

theorem Yields.of_map {task : Task α} {transform : α → β}
    (yields : (task.map transform).Yields now result later) :
    ∃ value, task.Yields now value later ∧ transform value = result := by
  induction task generalizing now with
  | done value =>
      cases yields
      exact ⟨value, .done value _, rfl⟩
  | waiting deadline resume induction =>
      cases yields with
      | waiting reached earlier yields =>
          rcases induction _ yields with ⟨value, yields, same⟩
          exact ⟨value, .waiting reached earlier yields, same⟩
  | opening name answer induction =>
      cases yields with
      | opening script yields =>
          rcases induction _ yields with ⟨value, yields, same⟩
          exact ⟨value, .opening script yields, same⟩
  | stuck => cases yields

end Task

namespace Feed

/-- Asked at `now`, the feed can show these items, each at its instant, and then end. -/
inductive Shows : Feed α → Nat → List (Nat × Except QueryError α) → Prop
  | finished (now : Nat) : Shows .finished now []
  | item : now ≤ later → Shows (rest later) later shown →
      Shows (.item entry rest) now ((now, entry) :: shown)
  | waiting : deadline ≤ resumed → now ≤ resumed → Shows (resume resumed) resumed shown →
      Shows (.waiting deadline resume) now shown
  | opening (answer : Except QueryError Script) : Shows (next answer) now shown →
      Shows (.opening name next) now shown

theorem Shows.of_afterTask {task : Task α} {next : α → Stream β}
    (shows : (afterTask task now next).Shows now shown) :
    ∃ value later, task.Yields now value later ∧ (next value later).Shows later shown := by
  induction task generalizing now with
  | done value => exact ⟨value, now, .done value now, shows⟩
  | waiting deadline resume induction =>
      cases shows with
      | waiting reached earlier shows =>
          rcases induction _ shows with ⟨value, later, yields, shows⟩
          exact ⟨value, later, .waiting reached earlier yields, shows⟩
  | opening name answer induction =>
      cases shows with
      | opening script shows =>
          rcases induction _ shows with ⟨value, later, yields, shows⟩
          exact ⟨value, later, .opening script yields, shows⟩
  | stuck => cases shows

theorem Shows.of_emit {entries : List (Except QueryError α)} {rest : Stream α}
    (shows : (emit entries rest now).Shows now shown) :
    ∃ first later following, shown = first ++ following ∧ first.map (·.2) = entries ∧
      now ≤ later ∧ (rest later).Shows later following := by
  induction entries generalizing now shown with
  | nil => exact ⟨[], now, shown, rfl, rfl, Nat.le_refl now, shows⟩
  | cons entry entries induction =>
      cases shows with
      | item earlier shows =>
          rcases induction shows with ⟨first, later, following, rfl, same, reached, shows⟩
          exact ⟨(now, entry) :: first, later, following, rfl, by rw [List.map_cons, same],
            Nat.le_trans earlier reached, shows⟩

/-- The run of a feed to its end is one of the things that it can show. -/
theorem shows_run (feed : Feed α) (world : World) (ended : (feed.run none world).ended.isSome) :
    feed.Shows world.now (feed.run none world).items := by
  induction feed generalizing world with
  | finished => exact .finished world.now
  | item entry rest induction =>
      exact .item (Nat.le_refl _) (induction _ world ended)
  | waiting deadline resume induction =>
      exact .waiting (Nat.le_max_left _ _) (Nat.le_max_right _ _)
        (induction _ (world.advance deadline) ended)
  | opening name next induction => exact .opening _ (induction _ (world.request name).2 ended)
  | silent => cases ended

end Feed

/-! Work and feeds that come to an end, whatever the clock does, if the sources that they open do. -/

def Script.Answers (answer : Except QueryError Script) : Prop :=
  ∀ script, answer = .ok script → script.ends = true

namespace Task

def Ends : Task α → Prop
  | .done _ => True
  | .waiting _ resume => ∀ now, (resume now).Ends
  | .opening _ next => ∀ answer, Script.Answers answer → (next answer).Ends
  | .stuck => False

end Task

namespace Feed

def Ends : Feed α → Prop
  | .finished => True
  | .item _ rest => ∀ now, (rest now).Ends
  | .waiting _ resume => ∀ now, (resume now).Ends
  | .opening _ next => ∀ answer, Script.Answers answer → (next answer).Ends
  | .silent => False

theorem ends_emit (entries : List (Except QueryError α)) {rest : Stream α}
    (ends : ∀ now, (rest now).Ends) (now : Nat) : (emit entries rest now).Ends := by
  induction entries generalizing now with
  | nil => exact ends now
  | cons entry entries induction => exact induction

theorem ends_afterTask {task : Task α} {next : α → Stream β} (completes : task.Ends)
    (ends : ∀ value now, (next value now).Ends) (now : Nat) : (afterTask task now next).Ends := by
  induction task generalizing now with
  | done value => exact ends value now
  | waiting deadline resume induction =>
      intro resumed
      exact induction resumed (completes resumed) resumed
  | opening name answer induction =>
      intro script answers
      exact induction script (completes script answers) now
  | stuck => exact completes.elim

end Feed

namespace Sources

def End : Sources → Prop
  | .named scripts _ => ∀ entry ∈ scripts, entry.2.ends = true
  | .single script _ => script.ends = true

theorem End.findNamed {scripts : List (String × Script)} {tables : List (String × List Value)}
    (ends : End (.named scripts tables)) (name : String) :
    Script.Answers (findNamed scripts tables name) := by
  intro script found
  simp only [Sources.findNamed] at found
  split at found
  · next located =>
      cases found
      exact ends _ (List.mem_of_find?_eq_some located)
  · cases found
    rfl
  · cases found

theorem End.request {sources : Sources} (ends : sources.End) (name : String) :
    Script.Answers (sources.request name).1 ∧ (sources.request name).2.End := by
  cases sources with
  | named scripts tables => exact ⟨End.findNamed ends name, ends⟩
  | single script opened =>
      cases opened with
      | false => exact ⟨fun _ same => Except.ok.inj same ▸ ends, ends⟩
      | true => exact ⟨fun _ refused => (nomatch refused), ends⟩

end Sources

theorem Feed.Ends.run {feed : Feed α} (ends : feed.Ends) (world : World)
    (sources : world.sources.End) : (feed.run none world).ended.isSome := by
  induction feed generalizing world with
  | finished => rfl
  | item entry rest induction => exact induction _ (ends _) world sources
  | waiting deadline resume induction => exact induction _ (ends _) _ sources
  | opening name next induction =>
      have answered := sources.request name
      exact induction _ (ends _ answered.1) _ answered.2
  | silent => exact ends.elim

end StreamQuery
