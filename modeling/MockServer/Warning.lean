/-!
# Warnings

Problems that a request or a definition survives are reported, not raised. A computation that may
report them is `Logged`: a value with the warnings raised on the way to it, in order.
-/

namespace MockServer

/-- A reported problem: its text and the things it is about, each with the role it plays. -/
structure Warning where
  message : String
  subjects : List (String × String)
  deriving DecidableEq, Repr

/-- A value with the warnings raised on the way to it. -/
structure Logged (α : Type) where
  value : α
  warnings : List Warning

namespace Logged

variable {α β : Type}

/-- A value without warnings. -/
def quiet (a : α) : Logged α :=
  ⟨a, []⟩

/-- One computation after another; the warnings of the first come first. -/
def andThen (x : Logged α) (f : α → Logged β) : Logged β :=
  let y := f x.value
  ⟨y.value, x.warnings ++ y.warnings⟩

instance : Monad Logged where
  pure := quiet
  bind := andThen

/-- Raises a warning. -/
def warn (w : Warning) : Logged Unit :=
  ⟨(), [w]⟩

end Logged

end MockServer
