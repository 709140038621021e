import MockServer.Server.Summary

/-!
# Broadcasts

Summaries go to all viewers, but no more of them in a minute than a fixed number: the first ones at
once, later ones at an even pace. A viewer that does not keep up loses what it has not read.
-/

namespace MockServer.Server

/-- The number of summaries that wait for a viewer. -/
def channelSize : Nat := 64

/-- The viewers, what was sent to them, and when the pace is back at its start. -/
structure Broadcaster where
  perMinute : Nat
  subscribers : Nat
  dueAt : Time.Instant
  sent : List Summary

namespace Broadcaster

/-- A broadcaster of a number of summaries a minute; none means that nothing is sent. -/
def new (perMinute : Nat) : Broadcaster :=
  { perMinute, subscribers := 0, dueAt := 0, sent := [] }

/-- The time that one summary takes at an even pace. -/
def pace (b : Broadcaster) : Time.Span :=
  60 * Time.oneSecond / (b.perMinute : Int)

/-- Whether the pace allows a summary. -/
def allows (b : Broadcaster) (now : Time.Instant) : Bool :=
  b.dueAt - ((b.perMinute : Int) - 1) * b.pace ≤ now

/-- Sends a summary to the viewers, if there are any and the pace allows it; tells whether it was
sent. -/
def publish (b : Broadcaster) (now : Time.Instant) (s : Summary) : Bool × Broadcaster :=
  if b.perMinute = 0 || b.subscribers = 0 || !b.allows now then (false, b)
  else (true, { b with dueAt := max b.dueAt now + b.pace, sent := b.sent ++ [s] })

/-- What a viewer that has not read anything can still read. -/
def readable (b : Broadcaster) : List Summary :=
  if b.sent.length ≤ channelSize then b.sent else []

end Broadcaster

end MockServer.Server
