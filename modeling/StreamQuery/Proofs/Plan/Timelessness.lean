import StreamQuery.Proofs.Plan.Statements
import StreamQuery.Proofs.Stream.Deliveries
import StreamQuery.Proofs.Window.DelayedGroups
namespace StreamQuery

/-! What a statement comes to does not depend on the instant at which it is run, but for the time on
the clock: all that it waits for counts from its beginning. Later, under a clock that is as much
behind, it shows the same, as much later. -/

namespace WallClock

def StandsStill (clock : WallClock) : Prop :=
  ∀ now later, clock.reading now = clock.reading later

theorem standsStill_still (time : Int64) : (still time).StandsStill :=
  fun _ _ => rfl

end WallClock

namespace Correspondence

/-- The same later, under a clock that is as much behind. -/
def ofDelay (delay : Nat) : Correspondence where
  left := id
  right := id
  clocks clock behind := ∀ now, behind.reading (now + delay) = clock.reading now
  sharing := True
  evaluations := Evaluation.Delayed delay
  streams := Stream.Delayed delay
  openings := Opening.Related (Stream.Delayed delay)
  reading same _ := Evaluation.delayed_reading fun now => by rw [same]
  ok := Evaluation.delayed_ok
  thenCheck delayed _ := delayed.thenCheck _
  andThen := Evaluation.Delayed.andThen
  both := Evaluation.Delayed.both
  defer := Evaluation.Delayed.defer
  firstValue _ related :=
    Opening.Related.map related fun _ _ delayed now => (delayed now).first.map _
  collect related := Opening.Related.map related fun _ _ delayed now => (delayed now).collect [] now
  request _ := .opening fun answer => .done <| by
    cases answer with
    | ok script => exact Feed.delayed_ofDeliveries script.ends script.deliveries
    | error error => exact Feed.delayed_ofItems _
  defaultSource settings := Eq.refl settings.defaultSource
  opened := .done
  mapOpened related maps := Opening.Related.map related maps
  single _ := Feed.delayed_ofItems _
  joined delayed now := Feed.delayed_afterTask (delayed.run now) Feed.delayed_ofResult now
  process _ delayed steps now := (delayed now).process steps now
  group alike contributions delayed := by
    rcases alike.settings with ⟨base, first, second⟩
    exact Grouping.delayed_group (first.trans second.symm) contributions delayed
  distinct delayed now := (delayed now).distinct [] now
  sort descending delayed now := (delayed now).sort descending now
  row delayed now := (delayed now).map Shaped.row
  limit limit delayed := Limit.delayed_apply delayed limit

theorem clocks_ofDelay {clock : WallClock} {free : Prop} (stands : free → clock.StandsStill)
    {delay : Nat} (allowed : free ∨ delay = 0) : (ofDelay delay).clocks clock clock := by
  intro now
  rcases allowed with isFree | rfl
  · exact stands isFree _ _
  · rfl

end Correspondence

end StreamQuery
