import Mathlib.Data.List.Basic

/-!
# Replacing the transport port of a multiaddr

`replace_port` finds the first protocol of a multiaddr whose name is `udp`, the transport, and
replaces it with `udp` at the given port through `Multiaddr::replace(..).unwrap()`; with no
transport it appends one. The index comes from the multiaddr's own protocol stack, so the
`unwrap` never panics, and the code computes the recursive `setTransportPort`: the first transport
protocol gets the port, or a transport is appended. Hence the transport listens on the last port
given, replacing again acts as replacing the original, and the protocol stack gains `udp` only
when it had none. Multiaddrs and their protocols are libp2p's, modelled by what `replace_port`
reads: each protocol's name, and the port of a `udp` protocol.
-/

namespace Renegade.NetworkManager

/-- libp2p's `Protocol`: `udp` with its port, and any other protocol with its name and value. -/
inductive Protocol
  | udp (port : UInt16)
  | other (name : String) (value : String)
  deriving DecidableEq, Repr

/-- The protocol's name, as `protocol_stack` yields it. -/
def Protocol.tag : Protocol → String
  | udp _ => "udp"
  | other name _ => name

/-- libp2p's `Multiaddr`: its protocols, outermost first. -/
abbrev Multiaddr := List Protocol

/-- `TRANSPORT_PROTOCOL_NAME`. -/
def transportProtocolName : String := "udp"

@[simp] theorem Protocol.tag_udp (port : UInt16) :
    (Protocol.udp port).tag = transportProtocolName := rfl

namespace Multiaddr

/-- `Multiaddr::protocol_stack`: the protocols' names. -/
def protocolStack (multiaddr : Multiaddr) : List String := multiaddr.map Protocol.tag

/-- `Multiaddr::replace`: apply `f` to the protocol at `index`; `None` when the index is out of
range or `f` gives nothing. -/
def replace (multiaddr : Multiaddr) (index : Nat) (f : Protocol → Option Protocol) :
    Option Multiaddr :=
  multiaddr[index]?.bind fun p => (f p).map fun q => multiaddr.set index q

/-- `Multiaddr::with`: append a protocol. -/
def withProtocol (multiaddr : Multiaddr) (p : Protocol) : Multiaddr := multiaddr ++ [p]

end Multiaddr

/-- `replace_port`: the first transport protocol gets the port, or one is appended; `none` is the
panic of its `unwrap`. -/
def replacePort (multiaddr : Multiaddr) (port : UInt16) : Option Multiaddr :=
  match multiaddr.protocolStack.findIdx? (· == transportProtocolName) with
  | some transportIndex => multiaddr.replace transportIndex fun _ => some (.udp port)
  | none => some (multiaddr.withProtocol (.udp port))

/-- What `replace_port` computes, protocol by protocol: the first transport protocol gets the port,
or a transport is appended. -/
def setTransportPort : Multiaddr → UInt16 → Multiaddr
  | [], port => [.udp port]
  | p :: ps, port =>
    if p.tag = transportProtocolName then .udp port :: ps else p :: setTransportPort ps port

/-- `replace_port` on a multiaddr with a first protocol: replace it if it is the transport, else
look further and keep it. -/
theorem replacePort_cons (p : Protocol) (ps : Multiaddr) (port : UInt16) :
    replacePort (p :: ps) port =
      if p.tag = transportProtocolName then some (.udp port :: ps)
      else (replacePort ps port).map (p :: ·) := by
  by_cases hp : p.tag = transportProtocolName
  · simp [replacePort, Multiaddr.protocolStack, Multiaddr.replace, hp]
  · simp only [replacePort, Multiaddr.protocolStack, List.map_cons, List.findIdx?_cons,
      beq_iff_eq, hp, if_false, List.findIdx?_succ, Nat.zero_add]
    cases (ps.map Protocol.tag).findIdx? (· == transportProtocolName) with
    | none => rfl
    | some i =>
      simp only [Option.map_some', Multiaddr.replace, List.getElem?_cons_succ, List.set_cons_succ]
      cases ps[i]? <;> rfl

/-- The code computes `setTransportPort`, and its `unwrap` never panics. -/
theorem replacePort_eq (multiaddr : Multiaddr) (port : UInt16) :
    replacePort multiaddr port = some (setTransportPort multiaddr port) := by
  induction multiaddr with
  | nil => rfl
  | cons p ps ih =>
    rw [replacePort_cons, setTransportPort, ih]
    split <;> rfl

theorem setTransportPort_setTransportPort (multiaddr : Multiaddr) (port port' : UInt16) :
    setTransportPort (setTransportPort multiaddr port) port' =
      setTransportPort multiaddr port' := by
  induction multiaddr with
  | nil => rfl
  | cons p ps ih => by_cases hp : p.tag = transportProtocolName <;> simp [setTransportPort, hp, ih]

theorem protocolStack_setTransportPort (multiaddr : Multiaddr) (port : UInt16) :
    (setTransportPort multiaddr port).protocolStack =
      if transportProtocolName ∈ multiaddr.protocolStack then multiaddr.protocolStack
      else multiaddr.protocolStack ++ [transportProtocolName] := by
  induction multiaddr with
  | nil => rfl
  | cons p ps ih =>
    by_cases hp : p.tag = transportProtocolName
    · simp [setTransportPort, Multiaddr.protocolStack, hp]
    · simp only [setTransportPort, hp, if_false, Multiaddr.protocolStack, List.map_cons,
        List.mem_cons, Ne.symm hp, false_or] at ih ⊢
      rw [ih]
      split <;> rfl

theorem find?_setTransportPort (multiaddr : Multiaddr) (port : UInt16) :
    (setTransportPort multiaddr port).find? (·.tag == transportProtocolName) =
      some (.udp port) := by
  induction multiaddr with
  | nil => rfl
  | cons p ps ih =>
    by_cases hp : p.tag = transportProtocolName <;> simp [setTransportPort, hp, ih]

/-- `replace_port` never panics. The multiaddr it writes has its first transport protocol at the
given port, keeps the protocol stack and gains `udp` only when it had no transport, and replacing
its port again gives what replacing the original's would: the last port given wins. -/
theorem replacePort_lastPortWins (multiaddr : Multiaddr) (port port' : UInt16) :
    ∃ addr, replacePort multiaddr port = some addr ∧
      addr.find? (·.tag == transportProtocolName) = some (.udp port) ∧
      addr.protocolStack = (if transportProtocolName ∈ multiaddr.protocolStack then
        multiaddr.protocolStack else multiaddr.protocolStack ++ [transportProtocolName]) ∧
      replacePort addr port' = replacePort multiaddr port' :=
  ⟨_, replacePort_eq multiaddr port, find?_setTransportPort multiaddr port,
    protocolStack_setTransportPort multiaddr port, by
      rw [replacePort_eq, replacePort_eq, setTransportPort_setTransportPort]⟩

/-- The source's own test: `/ip4/127.0.0.1/udp/8000/quic-v1/p2p/..` moves to port `9000`. -/
example :
    replacePort [.other "ip4" "127.0.0.1", .udp 8000, .other "quic-v1" "", .other "p2p" "id"]
      9000 =
    some [.other "ip4" "127.0.0.1", .udp 9000, .other "quic-v1" "", .other "p2p" "id"] := by
  decide

end Renegade.NetworkManager
