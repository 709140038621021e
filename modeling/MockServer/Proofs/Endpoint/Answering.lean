import MockServer.Proofs.Endpoint.Compilation

/-!
# The order of an answer

An endpoint checks access first, then whether the request asks for an inspection, and only then
looks at its kind. A request that is rejected sees nothing of the rest (`handle_of_rejected`); one
that an endpoint serves gets from rules and their fallback what `dynamicResponse` gives
(`handle_of_dynamic`).
-/

namespace MockServer

open Http Proxy

/-- A request for a path that brings nothing else. -/
def Http.Request.toPath (path : String) : Request where
  method := "GET"
  target := ⟨none, none, path, none⟩
  version := .http11
  headers := []
  body := []
  remote := ⟨.v4 [127, 0, 0, 1], 0⟩
  correlationId := ""
  receivedAt := 0
  pattern := path
  params := []

namespace Endpoint

/-- A machine at the start of time, with nothing around it. -/
def Services.alone : Services where
  surroundings := ⟨0, "", 0, none, ⟨"", "", "", "", "", "", ""⟩⟩
  network := fun _ ↦ .error .refused

variable {e : Compiled} {r : Request}

/-- A rejection is all that comes of a request that is rejected. -/
theorem Compiled.handle_of_rejected {rejection : Response}
    (h : e.access.bind (·.check r) = some rejection) (s : Services) (g : Registry) :
    e.handle s r g = return ⟨rejection, [], [], g⟩ := by
  rw [handle, h]

/-- An endpoint serves a request that it lets in and that asks for no inspection. -/
structure Compiled.Serves (e : Compiled) (r : Request) : Prop where
  access : e.access.bind (·.check r) = none
  inspection : Inspection.ofRequest? r = none

/-- A request that is served by rules gets their response, after the delay that it asks for. -/
theorem Compiled.handle_of_dynamic {rules : List Rule} {fallback : Fallback}
    (hkind : e.kind = .dynamic rules fallback) (hserves : e.Serves r) (s : Services)
    (g : Registry) :
    e.handle s r g =
      (⟨⟨(dynamicResponse s.surroundings.now rules fallback r).value,
          (requestedDelay? r).toList, [], g⟩,
        (dynamicResponse s.surroundings.now rules fallback r).warnings⟩ : Logged Outcome) := by
  have hanswer : e.answer s r g =
      (⟨⟨(dynamicResponse s.surroundings.now rules fallback r).value, [], [], g⟩,
        (dynamicResponse s.surroundings.now rules fallback r).warnings⟩ : Logged Outcome) := by
    simp only [answer, hkind]
    exact Logged.map_eq _ _
  rw [handle, hserves.access]
  simp only [hserves.inspection]
  rw [hanswer]
  refine (Logged.map_eq _ _).trans ?_
  rw [List.append_nil]

/-- An endpoint with other rules serves the same requests, and gives them the response of these
rules. -/
theorem Compiled.Serves.value_handle (h : e.Serves r) (rules : List Rule) (fallback : Fallback)
    (s : Services) (g : Registry) :
    ({ e with kind := .dynamic rules fallback }.handle s r g).value =
      ⟨(dynamicResponse s.surroundings.now rules fallback r).value, (requestedDelay? r).toList, [],
        g⟩ := by
  have hserves : { e with kind := .dynamic rules fallback }.Serves r := ⟨h.access, h.inspection⟩
  rw [Compiled.handle_of_dynamic rfl hserves]

end Endpoint

end MockServer
