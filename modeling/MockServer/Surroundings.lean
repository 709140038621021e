import MockServer.Time.Civil

/-!
# Surroundings

What an answer may show of the machine that gives it and of the program that runs there. Answers
are functions of a request and of these.
-/

namespace MockServer

/-- How the program was built. -/
structure BuildInfo where
  version : String
  commit : String
  branch : String
  time : String
  profile : String
  target : String
  compiler : String
  deriving DecidableEq, Repr

/-- The clock, the machine and the program. -/
structure Surroundings where
  now : Time.Instant
  hostname : String
  processId : Nat
  mainIp : Option String
  build : BuildInfo
  deriving DecidableEq, Repr

end MockServer
