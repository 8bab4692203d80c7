import HearthAI.Fetch.Transport

/-! # Name resolution, validated once and then pinned to the connection -/
namespace HearthAI.Fetch
open Text Contracts

/-- One hop that policy has already approved. The approval travels with the value. -/
structure ValidatedDestination (policy : DestinationPolicy) where
  url : Url
  addresses : List SocketAddr
  permitted : ∀ address ∈ addresses,
    policy.permits address.ip = true ∧ policy.permitsPort address.port = true

/-- `Option::ok_or`. -/
def okOr {α : Type} (o : Option α) (code : ErrorCode) : Except ErrorCode α :=
  o.elim (.error code) .ok

@[simp] theorem okOr_eq_ok {α : Type} {o : Option α} {code : ErrorCode} {a : α} :
    okOr o code = .ok a ↔ o = some a := by
  cases o <;> simp [okOr]

namespace ValidatedDestination
variable {policy : DestinationPolicy}

/-- Resolve one hop and decide whether it may be connected to. Every answer must
be permitted, not just the one that would be used. -/
def resolve (world : World) (policy : DestinationPolicy) (url : Url) :
    Network (ValidatedDestination policy) := do
  Effect.lift ((checkDestination url).mapError (fun _ => .unsafeSource))
  let host ← Effect.lift (okOr url.hostStr .unsafeSource)
  let port ← Effect.lift (okOr url.portOrKnownDefault .unsafeSource)
  if hport : policy.permitsPort port = true then do
    let addresses ← lookupHost world host port
    Effect.raiseIf (addresses.isEmpty = true) .fetchFailed
    if hall : addresses.all policy.permits = true then
      return ⟨url,addresses.map (⟨·,port⟩),by
        intro address haddress
        obtain ⟨ip,hip,rfl⟩ := List.mem_map.mp haddress
        exact ⟨List.all_eq_true.mp hall ip hip,hport⟩⟩
    else Effect.raise .unsafeSource
  else Effect.raise .unsafeSource

/-- A resolver that ignores the URI and answers with this destination's addresses. -/
def pinnedResolver (destination : ValidatedDestination policy) : Resolver := fun _ _ =>
  let resolved := destination.addresses.take 16
  if resolved.isEmpty then .error .hostNotFound else .ok resolved

theorem mem_of_pinnedResolver {destination : ValidatedDestination policy} {uri : String}
    {config : Config} {resolved : List SocketAddr} {address : SocketAddr}
    (h : destination.pinnedResolver uri config = .ok resolved) (haddress : address ∈ resolved) :
    address ∈ destination.addresses := by
  unfold pinnedResolver at h
  dsimp only at h
  split at h
  · cases h
  · cases h
    exact List.mem_of_mem_take haddress

end ValidatedDestination
end HearthAI.Fetch
