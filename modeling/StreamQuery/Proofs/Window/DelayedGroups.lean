import StreamQuery.Proofs.Stream.Delays
import StreamQuery.Window.Grouping
namespace StreamQuery

/-! The loop that groups records counts its time from its start. Begun later, it takes the same
turns. -/

namespace Grouping

variable {grouping : Grouping} {context changed : Context} {started delay : Nat}

/-- The input is ready as much later, or is so already in both loops. -/
inductive ReadyLater (delay : Nat) : Option Nat → Option Nat → Prop
  | never : ReadyLater delay none none
  | ready (instant : Nat) : ReadyLater delay (some instant) (some (instant + delay))
  | already : ReadyLater delay (some 0) (some 0)

theorem delayed_await {ready later : Option Nat} {next other : Stream GroupTurn}
    (readies : ReadyLater delay ready later) (delayed : next.Delayed delay other) :
    Stream.Delayed delay (await ready next) (await later other) := by
  intro now
  cases readies with
  | never => exact .silent
  | ready instant =>
      simp only [await, Nat.add_le_add_iff_right]
      split
      · exact delayed now
      · exact .waiting delayed
  | already =>
      simp only [await, Nat.zero_le, if_true]
      exact delayed now

theorem closing?_add (grouping : Grouping) (started delay id : Nat) :
    grouping.closing? (started + delay) id = (grouping.closing? started id).map (· + delay) := by
  simp only [closing?]
  split
  · simp only [Option.map_some, Option.some.injEq]
    omega
  · rfl

theorem delayed_attend {ready later : Option Nat} {next other : GroupState → Stream GroupTurn}
    (readies : ReadyLater delay ready later)
    (delayed : ∀ state, (next state).Delayed delay (other state)) (state : GroupState)
    (windows : OpenWindows) :
    Stream.Delayed delay (grouping.attend started ready next state windows)
      (grouping.attend (started + delay) later other state windows) := by
  induction windows with
  | nil => exact delayed_await readies (delayed _)
  | cons window rest induction =>
      intro now
      simp only [attend, closing?_add]
      cases grouping.closing? started window.1 with
      | none => exact delayed_await readies (delayed _) now
      | some closing =>
          -- Where the loop goes on after a wait: at the deadline the window closes, before it the
          -- input is there.
          have resumed : ∀ now, Feed.Delayed delay
              (if closing ≤ now then .item (.ok ⟨.expired, [window], { state with windows := rest }⟩)
                (grouping.attend started ready next state rest)
              else next { state with windows := window :: rest } now)
              (if closing + delay ≤ now + delay then
                .item (.ok ⟨.expired, [window], { state with windows := rest }⟩)
                  (grouping.attend (started + delay) later other state rest)
              else other { state with windows := window :: rest } (now + delay)) := by
            intro now
            simp only [Nat.add_le_add_iff_right]
            split
            · exact .item _ induction
            · exact delayed _ now
          simp only [Option.map_some, Nat.add_le_add_iff_right]
          split
          · exact .item _ induction
          · cases readies with
            | never => exact .waiting resumed
            | ready instant =>
                simp only [Option.any_some, Nat.add_le_add_iff_right, Option.map_some,
                  Option.getD_some, Nat.add_min_add_right]
                split
                · exact delayed _ now
                · exact .waiting resumed
            | already =>
                simp only [Option.any_some, Nat.zero_le, decide_true, if_true]
                exact delayed _ now

section
variable (settings : context.settings = changed.settings)
include settings

theorem delayed_refuse {onward other : GroupState → Stream GroupTurn}
    (delayed : ∀ state, (onward state).Delayed delay (other state)) (arrived : Nat) (row : Value)
    (error : QueryError) (state : GroupState) :
    Stream.Delayed delay (refuse context arrived row onward error state)
      (refuse changed arrived row other error state) := by
  simp only [refuse, settings]
  split
  · exact Feed.delayed_emit _ (delayed state)
  · exact Feed.delayed_ofItems _

theorem delayed_settle {onward other : GroupState → Stream GroupTurn}
    (delayed : ∀ state, (onward state).Delayed delay (other state)) (arrived : Nat) (row : Value)
    (state : GroupState) (result : Except QueryError Contribution) :
    Stream.Delayed delay (grouping.settle context started arrived row onward state result)
      (grouping.settle changed (started + delay) arrived row other state result) := by
  cases result with
  | error error => exact delayed_refuse settings delayed arrived row error state
  | ok record =>
      intro now
      simp only [settle, settings, Nat.add_sub_add_right]
      split
      · exact delayed_refuse settings delayed arrived row _ _ now
      · exact Feed.delayed_emit _ (delayed _) now

theorem delayed_turns
    (contributions : ∀ row, (grouping.contribution (context.withRow row)).Delayed delay
      (grouping.contribution (changed.withRow row)))
    {feed other : Feed Value} (feeds : feed.Delayed delay other) (state : GroupState) :
    Stream.Delayed delay (feed.turns grouping context started state)
      (other.turns grouping changed (started + delay) state) := by
  induction feeds generalizing state with
  | finished => exact Feed.delayed_ofItems _
  | item entry _ induction =>
      cases entry with
      | error error => exact Feed.delayed_ofItems _
      | ok row =>
          intro now
          simp only [Feed.turns, Nat.add_sub_add_right]
          refine Feed.delayed_afterTask ((contributions row).run now) ?_ now
          exact delayed_settle settings (fun state => delayed_attend .already
            (fun state now => induction now state now) state state.windows) _ row state
  | waiting _ induction =>
      exact delayed_attend (.ready _) (fun state now => induction now state now) state state.windows
  | opening _ induction => exact fun now => .opening fun answer => induction answer state now
  | silent => exact delayed_attend .never (fun _ _ => .silent) state state.windows

end

theorem delayed_groupRows {feed other : Feed GroupTurn} (delayed : feed.Delayed delay other)
    (now : Nat) :
    (feed.groupRows grouping now).Delayed delay (other.groupRows grouping (now + delay)) := by
  induction delayed generalizing now with
  | finished => exact .finished
  | item entry _ induction =>
      cases entry with
      | error error => exact .item _ fun now => induction now now
      | ok turn => exact Feed.delayed_emit _ (fun now => induction now now) now
  | waiting _ induction => exact .waiting fun now => induction now now
  | opening _ induction => exact .opening fun answer => induction answer now
  | silent => exact .silent

theorem delayed_group (settings : context.settings = changed.settings)
    (contributions : ∀ row, (grouping.contribution (context.withRow row)).Delayed delay
      (grouping.contribution (changed.withRow row)))
    {records other : Stream Value} (streams : records.Delayed delay other) :
    Stream.Delayed delay (records.group grouping context) (other.group grouping changed) :=
  fun now => delayed_groupRows
    (delayed_turns settings contributions (streams now) GroupState.start now) now

end Grouping

end StreamQuery
