import HearthAI.Contracts.Request
import HearthAI.Fetch.Special
import HearthAI.Fetch.Resolve

/-! # Destinations named by an address

The host of a URL goes to the lookup as the `url` crate writes it, which puts an IPv6 address
in brackets.
-/
namespace HearthAI.Fetch
open Contracts Effect

/-- The lookup `(host, port).to_socket_addrs()` of the standard library. -/
abbrev ToSocketAddrs := String → ℕ → Option (List SocketAddr)

/-- `SystemResolver::lookup`. -/
def systemLookup (toSocketAddrs : ToSocketAddrs) (host : String) (port : ℕ) :
    Option (List IpAddr) :=
  (toSocketAddrs host port).map fun addresses => addresses.map SocketAddr.ip

/-- An address as text. `v6Text` writes the IPv6 ones. -/
def IpAddr.text (v6Text : Ipv6Addr → String) : IpAddr → String
  | .v4 a => s!"{a.a.toNat}.{a.b.toNat}.{a.c.toNat}.{a.d.toNat}"
  | .v6 a => v6Text a

/-- The host of a URL whose host is an address, as `Url::host_str` gives it. -/
def IpAddr.hostText (v6Text : Ipv6Addr → String) : IpAddr → String
  | .v4 a => (IpAddr.v4 a).text v6Text
  | .v6 a => "[" ++ (IpAddr.v6 a).text v6Text ++ "]"

/-- The lookup takes the bare text of the address, and no text in brackets. -/
structure ToSocketAddrs.Reads (toSocketAddrs : ToSocketAddrs) (v6Text : Ipv6Addr → String)
    (address : IpAddr) : Prop where
  bare : ∀ port, toSocketAddrs (address.text v6Text) port = some [⟨address,port⟩]
  bracketed : ∀ text port, toSocketAddrs ("[" ++ text ++ "]") port = none

/-- A URL that may be fetched, with an address for its host. -/
structure LiteralUrl (policy : DestinationPolicy) (v6Text : Ipv6Addr → String) (url : Url)
    (address : IpAddr) (port : ℕ) : Prop where
  scheme : url.scheme = "http" ∨ url.scheme = "https"
  username : url.username = ""
  password : url.password = none
  host : url.hostStr = some (address.hostText v6Text)
  knownPort : url.portOrKnownDefault = some port
  permitted : policy.permitsPort port = true

/-- The hop gets the verdict of the policy on its address. -/
def GetsVerdict (world : World) (policy : DestinationPolicy) (url : Url) (address : IpAddr)
    (port : ℕ) (trace : Trace) : Prop :=
  (policy.permits address = true →
      ∃ destination, (ValidatedDestination.resolve world policy url trace).1 = .ok destination ∧
        destination.addresses = [⟨address,port⟩]) ∧
    (policy.permits address = false →
      (ValidatedDestination.resolve world policy url trace).1 = .error .unsafeSource)

section
variable {world : World} {policy : DestinationPolicy} {url : Url} {toSocketAddrs : ToSocketAddrs}
  {v6Text : Ipv6Addr → String} {address : IpAddr} {host : String} {port : ℕ} {trace : Trace}

theorem IpAddr.hostText_ne_empty : address.hostText v6Text ≠ "" := by
  intro hempty
  have hlength := congrArg String.length hempty
  have hmark : "[".length = 1 ∧ (toString ".").length = 1 ∧ "".length = 0 := ⟨rfl,rfl,rfl⟩
  cases address with
  | v4 a =>
    simp only [IpAddr.hostText,IpAddr.text,String.length_append] at hlength
    omega
  | v6 a =>
    simp only [IpAddr.hostText,String.length_append] at hlength
    omega

theorem LiteralUrl.checks (hurl : LiteralUrl policy v6Text url address port) :
    checkDestination url = .ok () :=
  checkDestination_eq_ok.mpr ⟨hurl.scheme,hurl.username,hurl.password,_,hurl.host,
    IpAddr.hostText_ne_empty⟩

/-- What is left of a hop once its URL was read. -/
theorem LiteralUrl.resolve_eq (hurl : LiteralUrl policy v6Text url address port) :
    (ValidatedDestination.resolve world policy url trace).1 =
      ((do
        let addresses ← lookupHost world (address.hostText v6Text) port
        Effect.raiseIf (addresses.isEmpty = true) .fetchFailed
        if hall : addresses.all policy.permits = true then
          return ⟨url,addresses.map (⟨·,port⟩),by
            intro socket hsocket
            obtain ⟨ip,hip,rfl⟩ := List.mem_map.mp hsocket
            exact ⟨List.all_eq_true.mp hall ip hip,hurl.permitted⟩⟩
        else Effect.raise .unsafeSource : Network (ValidatedDestination policy)) trace).1 := by
  have hcheck : Effect.lift ((checkDestination url).mapError fun _ => ErrorCode.unsafeSource)
      trace = (.ok (),trace) := by
    rw [hurl.checks]
    rfl
  have hhost : Effect.lift (okOr url.hostStr .unsafeSource) trace =
      (.ok (address.hostText v6Text),trace) := by
    rw [hurl.host]
    rfl
  have hport : Effect.lift (okOr url.portOrKnownDefault .unsafeSource) trace =
      (.ok port,trace) := by
    rw [hurl.knownPort]
    rfl
  unfold ValidatedDestination.resolve
  rw [bind_ok hcheck,bind_ok hhost,bind_ok hport,dif_pos hurl.permitted]

theorem LiteralUrl.resolve_unanswered (hurl : LiteralUrl policy v6Text url address port)
    (hlookup : world.lookup trace (address.hostText v6Text) port = none) :
    (ValidatedDestination.resolve world policy url trace).1 = .error .fetchFailed := by
  have hfailed : lookupHost world (address.hostText v6Text) port trace =
      (.error .fetchFailed,trace.addLookup ⟨address.hostText v6Text,port,none⟩) := by
    unfold lookupHost
    rw [hlookup]
    rfl
  rw [hurl.resolve_eq,bind_error hfailed]

/-- A lookup that answers with the address alone leaves the verdict to the policy. -/
theorem LiteralUrl.getsVerdict (hurl : LiteralUrl policy v6Text url address port)
    (hlookup : world.lookup trace (address.hostText v6Text) port = some [address]) :
    GetsVerdict world policy url address port trace := by
  have hanswered : lookupHost world (address.hostText v6Text) port trace =
      (.ok [address],trace.addLookup ⟨address.hostText v6Text,port,some [address]⟩) := by
    unfold lookupHost
    rw [hlookup]
    rfl
  have hsome : raiseIf ([address].isEmpty = true) ErrorCode.fetchFailed
      (trace.addLookup ⟨address.hostText v6Text,port,some [address]⟩) =
        (.ok (),trace.addLookup ⟨address.hostText v6Text,port,some [address]⟩) :=
    raiseIf_neg Bool.false_ne_true _ _
  unfold GetsVerdict
  rw [hurl.resolve_eq,bind_ok hanswered,bind_ok hsome]
  constructor
  · intro hpermits
    rw [dif_pos (by rw [List.all_cons,hpermits]; rfl)]
    exact ⟨_,rfl,rfl⟩
  · intro hrefuses
    rw [dif_neg (by rw [List.all_cons,hrefuses]; exact Bool.false_ne_true)]
    rfl

/-- An address in the URL gets the verdict of the policy exactly when it is an IPv4 one. -/
theorem literal_verdict_iff (hsystem : ∀ trace, world.lookup trace = systemLookup toSocketAddrs)
    (hreads : toSocketAddrs.Reads v6Text address)
    (hurl : LiteralUrl policy v6Text url address port) (trace : Trace) :
    GetsVerdict world policy url address port trace ↔ ∃ v4, address = .v4 v4 := by
  cases address with
  | v4 v4 =>
    refine iff_of_true (hurl.getsVerdict ?_) ⟨v4,rfl⟩
    rw [hsystem,systemLookup,IpAddr.hostText,hreads.bare]
    rfl
  | v6 v6 =>
    refine iff_of_false ?_ (by simp)
    have hlookup : world.lookup trace ((IpAddr.v6 v6).hostText v6Text) port = none := by
      rw [hsystem,systemLookup,IpAddr.hostText,hreads.bracketed]
      rfl
    have hfailed := hurl.resolve_unanswered hlookup
    rintro ⟨hok,herror⟩
    cases hpermits : policy.permits (.v6 v6) with
    | true =>
      obtain ⟨destination,hresolve,_⟩ := hok hpermits
      rw [hfailed] at hresolve
      cases hresolve
    | false =>
      have hresolve := herror hpermits
      rw [hfailed] at hresolve
      cases hresolve

end

def pageV4 : IpAddr := .v4 ⟨93,184,216,34⟩
def pageV6 : IpAddr := .v6 ⟨0x2606,0x2800,0x220,1,0x248,0x1893,0x25c8,0x1946⟩

def pageText (v6 : Ipv6Addr) : String :=
  if IpAddr.v6 v6 = pageV6 then "2606:2800:220:1:248:1893:25c8:1946" else "::"

/-- The lookup, as far as two addresses go. -/
def pageLookup : ToSocketAddrs := fun host port =>
  if host = "93.184.216.34" then some [⟨pageV4,port⟩]
  else if host = "2606:2800:220:1:248:1893:25c8:1946" then some [⟨pageV6,port⟩]
  else none

theorem pageLookup_bracketed (text : String) (port : ℕ) :
    pageLookup ("[" ++ text ++ "]") port = none := by
  have hne : ∀ digits : String, digits.toList.head? ≠ some '[' →
      "[" ++ text ++ "]" ≠ digits := by
    rintro digits hdigits rfl
    refine hdigits ?_
    rw [String.toList_append,String.toList_append]
    rfl
  unfold pageLookup
  rw [if_neg (hne _ (by decide)),if_neg (hne _ (by decide))]

theorem pageLookup_reads {address : IpAddr} (h : address = pageV4 ∨ address = pageV6) :
    pageLookup.Reads pageText address := by
  refine ⟨fun port => ?_,pageLookup_bracketed⟩
  rcases h with rfl | rfl <;> rfl

/-- A machine with the system resolver. Nothing else of it is used here. -/
def literalWorld : World where
  urls := ⟨fun _ => .error "",fun _ _ => .error "",fun _ => ""⟩
  times := ⟨fun _ => none,fun _ => none⟩
  sha256Hex := fun _ => ""
  lookup := fun _ => systemLookup pageLookup
  http := fun _ _ _ => ([],.error .other)
  clock := fun _ => 0
  nowUtc := ⟨0,0⟩

def literalUrl (address : IpAddr) : Url :=
  ⟨"http","",none,some (address.hostText pageText),none,"/",none,none⟩

theorem literalUrl_literal (address : IpAddr) :
    LiteralUrl ⟨.production,[clusterRange]⟩ pageText (literalUrl address) address 80 :=
  ⟨.inl rfl,rfl,rfl,rfl,rfl,rfl⟩

/-- `http://93.184.216.34/`. -/
theorem literal_verdict_page :
    GetsVerdict literalWorld ⟨.production,[clusterRange]⟩ (literalUrl pageV4) pageV4 80
      .start :=
  (literal_verdict_iff (fun _ => rfl) (pageLookup_reads (.inl rfl)) (literalUrl_literal pageV4)
    .start).mpr ⟨_,rfl⟩

/-- `http://[2606:2800:220:1:248:1893:25c8:1946]/` is permitted, and the lookup fails. -/
theorem literal_unanswered :
    pageLookup.Reads pageText pageV6 ∧
      LiteralUrl ⟨.production,[clusterRange]⟩ pageText (literalUrl pageV6) pageV6 80 ∧
      (⟨.production,[clusterRange]⟩ : DestinationPolicy).permits pageV6 = true ∧
      (ValidatedDestination.resolve literalWorld ⟨.production,[clusterRange]⟩
        (literalUrl pageV6) .start).1 = .error .fetchFailed ∧
      ¬GetsVerdict literalWorld ⟨.production,[clusterRange]⟩ (literalUrl pageV6) pageV6 80
        .start := by
  have hlookup : literalWorld.lookup .start (pageV6.hostText pageText) 80 = none := by
    have hbracketed := pageLookup_bracketed (pageV6.text pageText) 80
    exact congrArg (Option.map fun addresses => addresses.map SocketAddr.ip) hbracketed
  have hfailed := (literalUrl_literal pageV6).resolve_unanswered hlookup
  have hpermits : (⟨.production,[clusterRange]⟩ : DestinationPolicy).permits pageV6 = true := by
    decide
  refine ⟨pageLookup_reads (.inr rfl),literalUrl_literal pageV6,hpermits,hfailed,?_⟩
  rintro ⟨hok,_⟩
  obtain ⟨destination,hresolve,_⟩ := hok hpermits
  rw [hfailed] at hresolve
  cases hresolve

end HearthAI.Fetch
