import MockServer.Json.Basic
import MockServer.Warning

/-!
# Counters

Named counters of 64 bits. A sum stays at the bound that it would pass, and only the first names
are kept, up to a fixed number of them; any other name counts nothing.
-/

namespace MockServer.Route

/-- The number of names that are counted. -/
def maxCounters : Nat := 1024

/-- The integer of 64 bits next to an integer. -/
def clamp64 (n : Int) : Int :=
  max (-Int.pow 2 63) (min (Int.pow 2 63 - 1) n)

/-- Counters by name. -/
structure Counters where
  values : List (String × Int)
  deriving DecidableEq, Repr

namespace Counters

/-- No counters. -/
def empty : Counters :=
  ⟨[]⟩

/-- The value of a counter. -/
def get (c : Counters) (key : String) : Int :=
  (c.values.lookup key).getD 0

/-- Adds to a counter and gives its value. -/
def add (c : Counters) (key : String) (delta : Int) : Logged (Int × Counters) :=
  if (c.values.lookup key).isSome || c.values.length < maxCounters then
    let value := clamp64 (c.get key + delta)
    return (value, ⟨Json.Entries.insert key value c.values⟩)
  else do
    Logged.warn
      { message := "counter limit reached, key not tracked"
        subjects := [("key", key), ("limit", toString maxCounters)] }
    return (0, c)

end Counters

end MockServer.Route
