import MockServer.Endpoint.Handler
import MockServer.Proofs.Proxy.Sharing

/-!
# Compiled definitions

What an endpoint is does not depend on the pools that other endpoints use: two compilations of a
definition differ at most in the identity of a shared pool and in the reason that a proxy without
backends gives. `Kind.view` replaces the identity of a pool by the places of its backends, and is
the same whatever registry a definition is compiled with (`view_kindOf`). The registry has to be
faithful on both sides, since an endpoint gets the pool that others asked for.

A definition is compiled to a proxy or leaves the registry alone (`kindOf_cases`), so that what
holds of sharing a pool holds of compiling.

The warnings of a compilation are among `compileMessages` (`only_compile`), so that they are not
mistaken for those of the routing table.
-/

namespace MockServer.Endpoint

open Proxy

/-! ### Views -/

/-- The pool of a kind. -/
def Kind.pool? : Kind → Option PoolId
  | .proxy id _ => some id
  | _ => none

/-- A kind without the identity of its pool and without the reason why it has none. -/
def Kind.shape : Kind → Kind
  | .proxy _ duplicates => .proxy 0 duplicates
  | .unavailable _ => .unavailable ""
  | kind => kind

/-- A kind, with the places of the backends of its pool in place of its identity. -/
def Kind.view (g : Registry) (kind : Kind) : Kind × Option (List (Http.Url × String)) :=
  (kind.shape, kind.pool?.bind g.places)

theorem Kind.exists_of_name {kind : Kind} (h : kind.name = "dynamic") :
    ∃ rules fallback, kind = .dynamic rules fallback := by
  cases kind with
  | dynamic rules fallback => exact ⟨rules, fallback, rfl⟩
  | download | proxy | unavailable | direct | canned | echo => simp [name] at h

/-! ### Proxies -/

theorem isOk_check_iff {pool : Pool} :
    pool.check = .ok () ↔ pool.backends.map Backend.place ≠ [] := by
  rw [Pool.check]
  cases pool.backends <;> simp

/-- A proxy takes the pool that it shares, and is unavailable where that has no backends. -/
theorem value_proxyKind (label : String) (body : Json.Entries) (addresses : List String)
    (g : Registry) :
    (proxyKind label body addresses g).value =
      (match (g.share label addresses).value.1.pool.check with
        | .ok () => .proxy (g.share label addresses).value.1.id (duplicatesOf body).value
        | .error e => .unavailable e.message,
        (g.share label addresses).value.2) := by
  rw [proxyKind, Logged.value_bind]
  generalize (g.share label addresses).value = shared
  obtain ⟨p, g'⟩ := shared
  cases h : p.pool.check with
  | ok u => simp only [h]; rfl
  | error e => simp only [h]; rfl

/-- Making a proxy changes the registry as sharing its pool does. -/
theorem pools_proxyKind (label : String) (body : Json.Entries) (addresses : List String)
    (g : Registry) :
    (proxyKind label body addresses g).value.2 = (g.share label addresses).value.2 := by
  rw [value_proxyKind]

/-- The view of a proxy tells its addresses, and nothing of other pools. -/
theorem view_proxyKind {g : Registry} (hg : g.Faithful) (label : String) (body : Json.Entries)
    (addresses : List String) :
    (proxyKind label body addresses g).value.1.view (proxyKind label body addresses g).value.2 =
      if placesAt addresses = [] then (.unavailable "", none)
      else (.proxy 0 (duplicatesOf body).value, some (placesAt addresses)) := by
  have hcheck : (g.share label addresses).value.1.pool.check = .ok () ↔
      placesAt addresses ≠ [] := by
    rw [isOk_check_iff, hg.backends_share]
  rw [value_proxyKind]
  cases h : (g.share label addresses).value.1.pool.check with
  | ok u =>
    rw [if_neg (hcheck.1 h)]
    exact Prod.ext rfl (hg.places_share label addresses)
  | error e =>
    rw [if_pos (Decidable.not_not.1 fun hne ↦ absurd (hcheck.2 hne) (by simp [h]))]
    rfl

/-- The pool of a proxy is in use. -/
theorem isSome_places_proxyKind {g : Registry} (hg : g.Faithful) {label : String}
    {body : Json.Entries} {addresses : List String} {id : PoolId}
    (hid : (proxyKind label body addresses g).value.1.pool? = some id) :
    ((proxyKind label body addresses g).value.2.places id).isSome := by
  rw [value_proxyKind] at hid ⊢
  cases h : (g.share label addresses).value.1.pool.check with
  | ok u =>
    rw [h] at hid
    obtain rfl := Option.some.inj hid
    rw [hg.places_share]
    rfl
  | error e =>
    rw [h] at hid
    cases hid

/-! ### Kinds -/

/-- A kind that needs no backends. -/
def Kind.IsLocal : Kind → Prop
  | .proxy .. | .unavailable _ => False
  | _ => True

theorem Kind.IsLocal.pool?_eq_none {kind : Kind} (h : kind.IsLocal) : kind.pool? = none := by
  cases kind with
  | proxy => exact h.elim
  | download | unavailable | direct | canned | echo | dynamic => rfl

theorem isLocal_localKind (label : String) (body : Json.Entries) :
    (localKind label body).value.IsLocal := by
  rw [localKind]
  split
  · trivial
  · split
    · trivial
    · split <;> trivial

/-- The addresses of the backends that a definition names. -/
def Definition.backendAddresses? (d : Definition) : Option (List String) :=
  if d.isFile then none else d.bodyObject?.bind proxyAddresses?

/-- A definition that names backends is compiled to a proxy, and any other one to something that
needs none. -/
theorem kindOf_cases (d : Definition) :
    (∃ body addresses, d.backendAddresses? = some addresses ∧
        ∀ g, kindOf d g = proxyKind d.label body addresses g) ∨
      ∃ kind : Kind, d.backendAddresses? = none ∧ kind.IsLocal ∧
        ∀ g, (kindOf d g).value = (kind, g) := by
  simp only [kindOf, Definition.backendAddresses?]
  split
  case isTrue => exact .inr ⟨.download, rfl, trivial, fun _ ↦ rfl⟩
  case isFalse =>
    split
    case h_1 hbody =>
      exact .inr ⟨.dynamic [] (.text d.body), by rw [hbody, Option.bind_none], trivial, fun _ ↦ rfl⟩
    case h_2 body hbody =>
      rw [hbody, Option.bind_some]
      split
      case h_1 addresses haddresses => exact .inl ⟨body, addresses, haddresses, fun _ ↦ rfl⟩
      case h_2 hnone => exact .inr ⟨_, hnone, isLocal_localKind d.label body, fun _ ↦ rfl⟩

theorem faithful_kindOf {g : Registry} (hg : g.Faithful) (d : Definition) :
    (kindOf d g).value.2.Faithful := by
  rcases kindOf_cases d with ⟨body, addresses, -, hproxy⟩ | ⟨kind, -, -, hkind⟩
  · rw [hproxy, pools_proxyKind]
    exact hg.share d.label addresses
  · rw [hkind]
    exact hg

/-- Compiling keeps the pools in use. -/
theorem keptIn_kindOf (d : Definition) (g : Registry) : g.KeptIn (kindOf d g).value.2 := by
  rcases kindOf_cases d with ⟨body, addresses, -, hproxy⟩ | ⟨kind, -, -, hkind⟩
  · rw [hproxy, pools_proxyKind]
    exact g.keptIn_share d.label addresses
  · rw [hkind]
    exact g.keptIn_refl

/-- The pool of what is compiled is in use. -/
theorem isSome_places_kindOf {g : Registry} (hg : g.Faithful) (d : Definition) (id : PoolId)
    (hid : (kindOf d g).value.1.pool? = some id) : ((kindOf d g).value.2.places id).isSome := by
  rcases kindOf_cases d with ⟨body, addresses, -, hproxy⟩ | ⟨kind, -, hlocal, hkind⟩
  · rw [hproxy] at hid ⊢
    exact isSome_places_proxyKind hg hid
  · rw [hkind, hlocal.pool?_eq_none] at hid
    cases hid

/-- What a definition is compiled to does not depend on the pools in use. -/
theorem view_kindOf {g g' : Registry} (hg : g.Faithful) (hg' : g'.Faithful) (d : Definition) :
    (kindOf d g).value.1.view (kindOf d g).value.2 =
      (kindOf d g').value.1.view (kindOf d g').value.2 := by
  rcases kindOf_cases d with ⟨body, addresses, -, hproxy⟩ | ⟨kind, -, hlocal, hkind⟩
  · rw [hproxy, hproxy, view_proxyKind hg, view_proxyKind hg']
  · rw [hkind, hkind, Kind.view, Kind.view, hlocal.pool?_eq_none]
    rfl

/-! ### Definitions -/

theorem value_compile (d : Definition) (g : Registry) :
    (compile d g).value =
      ({ definition := d, kind := (kindOf d g).value.1, access := accessOf d },
        (kindOf d g).value.2) := by
  rw [compile, Logged.value_bind]
  generalize (kindOf d g).value = made
  rfl

theorem kind_compile (d : Definition) (g : Registry) :
    (compile d g).value.1.kind = (kindOf d g).value.1 := by
  simp only [value_compile]

theorem pools_compile (d : Definition) (g : Registry) :
    (compile d g).value.2 = (kindOf d g).value.2 := by
  simp only [value_compile]

/-- A definition with an object as its body has nothing by which it would answer otherwise than by
rules. -/
structure AnswersByRules (d : Definition) (body : Json.Entries) : Prop where
  isFile : d.isFile = false
  addresses : proxyAddresses? body = none
  direct : Json.Entries.get? body "_direct" = none
  canned : CannedReply.detect? body = none
  echo : Json.Entries.get? body "_echo" = none

/-- A definition answers by rules only where it is of no other kind. -/
theorem answersByRules_of_dynamic {d : Definition} {body : Json.Entries}
    (hbody : d.bodyObject? = some body) {g : Registry} {rules : List Rule} {fallback : Fallback}
    (hkind : (kindOf d g).value.1 = .dynamic rules fallback) : AnswersByRules d body := by
  simp only [kindOf, hbody] at hkind
  split at hkind
  case isTrue => cases hkind
  case isFalse hfile =>
    split at hkind
    case h_1 addresses _ =>
      rw [value_proxyKind] at hkind
      dsimp only at hkind
      split at hkind <;> cases hkind
    case h_2 haddresses =>
      rw [Logged.value_bind, Logged.value_pure, localKind] at hkind
      split at hkind
      case h_1 => cases hkind
      case h_2 hdirect =>
        split at hkind
        case h_1 => cases hkind
        case h_2 hcanned =>
          split at hkind
          case h_1 => cases hkind
          case h_2 hecho =>
            exact ⟨Bool.eq_false_iff.2 hfile, haddresses, hdirect, hcanned, hecho⟩

/-- All that there is to compile of a definition that answers by rules are the rules. -/
theorem AnswersByRules.kindOf_eq {d : Definition} {body : Json.Entries}
    (h : AnswersByRules d body) (hbody : d.bodyObject? = some body) (g : Registry) :
    kindOf d g = (do
      let kind ← (do
        let rules ← rulesOf d.label body
        return Kind.dynamic rules (.template (.obj (fallbackBody body))))
      return (kind, g)) := by
  simp only [kindOf, h.isFile, Bool.false_eq_true, ↓reduceIte, hbody, h.addresses, localKind,
    h.direct, h.canned, h.echo]

/-- A definition that answers by rules has the kind of those. -/
theorem AnswersByRules.kind_eq {d : Definition} {body : Json.Entries}
    (h : AnswersByRules d body) (hbody : d.bodyObject? = some body) (g : Registry) :
    (compile d g).value.1.kind =
      .dynamic (rulesOf d.label body).value (.template (.obj (fallbackBody body))) := by
  rw [kind_compile, h.kindOf_eq hbody]
  rfl

/-- The rules of a definition that answers by rules are those of its object, and what they fall back
to is the object without the reserved keys. -/
theorem eq_of_kind_dynamic {d : Definition} {body : Json.Entries}
    (hbody : d.bodyObject? = some body) {g : Registry} {rules : List Rule} {fallback : Fallback}
    (hkind : (compile d g).value.1.kind = .dynamic rules fallback) :
    rules = (rulesOf d.label body).value ∧ fallback = .template (.obj (fallbackBody body)) := by
  have hrules := answersByRules_of_dynamic hbody ((kind_compile d g).symm.trans hkind)
  rw [hrules.kind_eq hbody] at hkind
  cases hkind
  exact ⟨rfl, rfl⟩

/-! ### Warnings -/

/-- The texts of the warnings that a compilation may raise. -/
def compileMessages : List String :=
  ["invalid backend address, skipping", "proxy endpoint has no usable backend",
    "invalid tee address, skipping", "invalid dynamic rule",
    "dynamic rule condition does not parse", "_dynamic is not an array, ignoring"]

/-- A warning that a compilation may raise. -/
def IsCompileWarning (w : Warning) : Prop :=
  w.message ∈ compileMessages

/-- A step that reports a problem and goes on without what has it. -/
theorem only_report {α : Type} {message : String} (h : message ∈ compileMessages)
    (subjects : List (String × String)) (a : α) :
    (do Logged.warn ⟨message, subjects⟩; return a : Logged α).Only IsCompileWarning :=
  Logged.only_report (w := ⟨message, subjects⟩) h a

theorem only_backendsOf (pool : String) (addresses : List String) :
    (backendsOf pool addresses).Only IsCompileWarning := by
  induction addresses with
  | nil => exact Logged.only_pure _
  | cons address rest ih =>
    refine Logged.Only.bind ?_ (ih.bind (Logged.only_pure _))
    rw [backendOf]
    cases Backend.parse address with
    | ok b => exact Logged.only_pure _
    | error e => exact only_report (by decide) _ _

theorem only_new (name : String) (addresses : List String) :
    (Pool.new name addresses).Only IsCompileWarning :=
  (only_backendsOf name (addresses.flatMap listedAddresses)).bind (Logged.only_pure _)

theorem only_share (g : Registry) (label : String) (addresses : List String) :
    (g.share label addresses).Only IsCompileWarning := by
  rw [Registry.share]
  cases g.ofKey? (Text.join "," addresses) with
  | some p => exact Logged.only_pure _
  | none => exact (only_new label addresses).bind (Logged.only_pure _)

theorem only_duplicatesOf (body : Json.Entries) : (duplicatesOf body).Only IsCompileWarning := by
  rw [duplicatesOf]
  split
  case h_1 v _ =>
    induction addresses v with
    | nil => exact Logged.only_pure _
    | cons address rest ih =>
      refine Logged.Only.bind ?_ (ih.bind (Logged.only_pure _))
      rw [duplicateTarget]
      split
      · exact Logged.only_pure _
      · exact only_report (by decide) _ _
  case h_2 => exact Logged.only_pure _

theorem only_proxyKind (label : String) (body : Json.Entries) (addresses : List String)
    (g : Registry) : (proxyKind label body addresses g).Only IsCompileWarning := by
  refine (only_share g label addresses).bind ?_
  generalize (g.share label addresses).value = shared
  obtain ⟨p, g'⟩ := shared
  cases h : p.pool.check with
  | ok u =>
    simp only [h]
    exact (only_duplicatesOf body).bind (Logged.only_pure _)
  | error e =>
    simp only [h]
    exact only_report (by decide) _ _

theorem only_compileRule (label : String) (body : Json.Entries) (index : Nat) (v : Json) :
    (compileRule label body index v).Only IsCompileWarning := by
  rw [compileRule]
  cases RawRule.ofJson v with
  | error e => exact only_report (by decide) _ _
  | ok raw =>
    cases hrule : raw.compile body with
    | error e =>
      simp only [hrule]
      exact only_report (by decide) _ _
    | ok rule =>
      simp only [hrule]
      exact Logged.only_pure _

theorem only_compileRulesFrom (label : String) (body : Json.Entries) (items : List Json) :
    ∀ index, (compileRulesFrom label body index items).Only IsCompileWarning := by
  induction items with
  | nil => exact fun _ ↦ Logged.only_pure _
  | cons v rest ih =>
    intro index
    exact (only_compileRule label body index v).bind ((ih (index + 1)).bind (Logged.only_pure _))

theorem only_rulesOf (label : String) (body : Json.Entries) :
    (rulesOf label body).Only IsCompileWarning := by
  rw [rulesOf]
  split
  case h_1 rules _ =>
    cases rules with
    | arr items => exact only_compileRulesFrom label body items 0
    | null | bool | num | str | obj => exact only_report (by decide) _ _
  case h_2 => exact Logged.only_pure _

theorem only_localKind (label : String) (body : Json.Entries) :
    (localKind label body).Only IsCompileWarning := by
  rw [localKind]
  split
  · exact Logged.only_pure _
  · split
    · exact Logged.only_pure _
    · split
      · exact Logged.only_pure _
      · exact (only_rulesOf label body).bind (Logged.only_pure _)

theorem only_kindOf (d : Definition) (g : Registry) : (kindOf d g).Only IsCompileWarning := by
  rw [kindOf]
  split
  case isTrue => exact Logged.only_pure _
  case isFalse =>
    split
    case h_1 => exact Logged.only_pure _
    case h_2 body _ =>
      split
      case h_1 addresses _ => exact only_proxyKind d.label body addresses g
      case h_2 => exact (only_localKind d.label body).bind (Logged.only_pure _)

/-- **Warnings of a compilation** are about addresses and rules, never about routes. -/
theorem only_compile (d : Definition) (g : Registry) :
    (compile d g).Only IsCompileWarning :=
  (only_kindOf d g).bind (Logged.only_pure _)

end MockServer.Endpoint
