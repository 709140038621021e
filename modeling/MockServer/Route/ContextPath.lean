import MockServer.Text.Pieces

/-!
# Context paths

All endpoints of a server may lie under one path. Slashes at its end do not count, and a path is
under it only at the end of a segment.
-/

namespace MockServer.Route

/-- A path relative to the context path that it lies under. -/
def stripContextPath? (context path : String) : Option String :=
  let start := Text.dropTrailingString '/' context
  if start.isEmpty then some path
  else
    (Text.dropStartString? start path).bind fun rest ↦
      if rest.isEmpty then some "/"
      else if Text.startsWith "/" rest then some rest
      else none

end MockServer.Route
