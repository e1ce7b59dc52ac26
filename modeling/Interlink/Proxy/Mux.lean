import Interlink.Proxy.Tls
import Mathlib.Data.List.MinMax

/-!
# The client-side tunnel pool

A tunnel is a TLS session that carries many streams.  Its `live` counter is
shared by every clone of the tunnel, so the counters are kept beside the lists,
by tunnel id.  A creation lock is a mutex that is never removed from its map:
for each address the pool keeps the task that holds it.
-/

namespace Interlink

open Interlink.Foundation

structure Tunnel where
  id : Nat
  peerIdentity : SpiffeId
  session : TlsSession
  deriving DecidableEq, Repr

def Tunnel.Genuine (parse : X509Parser) (tunnel : Tunnel) : Prop :=
  tunnel.session.identity parse = .ok tunnel.peerIdentity

/--
The ids of `TUNNEL_IDS` do not wrap here: a process would have to register 2^64 tunnels.
The counters of live streams do.
-/
structure MuxPool where
  peers : SocketAddr → List Tunnel
  creating : SocketAddr → Option Nat
  live : Nat → Nat
  nextId : Nat

def streamsPerTunnel : Nat := 200

def maxTunnelsPerPeer : Nat := 16

/-! ## Atomic counters -/

def wordSize : Nat := 2 ^ 64

def fetchAdd (n : Nat) : Nat := (n + 1) % wordSize

def fetchSub (n : Nat) : Nat := (n + (wordSize - 1)) % wordSize

namespace MuxPool

def new : MuxPool where
  peers := fun _ => []
  creating := fun _ => none
  live := fun _ => 0
  nextId := 0

def load (pool : MuxPool) (tunnel : Tunnel) : Nat :=
  pool.live tunnel.id

def pickUnderCap (pool : MuxPool) (addr : SocketAddr) : Option Tunnel :=
  ((pool.peers addr).filter fun tunnel => pool.load tunnel < streamsPerTunnel).argmin pool.load

def pickAny (pool : MuxPool) (addr : SocketAddr) : Option Tunnel :=
  (pool.peers addr).argmin pool.load

def canGrow (pool : MuxPool) (addr : SocketAddr) : Bool :=
  (pool.peers addr).length < maxTunnelsPerPeer

def evict (pool : MuxPool) (addr : SocketAddr) (id : Nat) : MuxPool :=
  { pool with
    peers := Function.update pool.peers addr
      ((pool.peers addr).filter fun tunnel => tunnel.id ≠ id) }

/--
`register` takes an id, allocates the counter and then extends the list: the
two halves are separate operations.
-/
def takeId (pool : MuxPool) : MuxPool :=
  { pool with nextId := pool.nextId + 1, live := Function.update pool.live pool.nextId 0 }

def push (pool : MuxPool) (addr : SocketAddr) (tunnel : Tunnel) : MuxPool :=
  { pool with peers := Function.update pool.peers addr (pool.peers addr ++ [tunnel]) }

def lock (pool : MuxPool) (addr : SocketAddr) (task : Nat) : MuxPool :=
  { pool with creating := Function.update pool.creating addr (some task) }

def unlock (pool : MuxPool) (addr : SocketAddr) : MuxPool :=
  { pool with creating := Function.update pool.creating addr none }

def reserve (pool : MuxPool) (id : Nat) : MuxPool :=
  { pool with live := Function.update pool.live id (fetchAdd (pool.live id)) }

def unreserve (pool : MuxPool) (id : Nat) : MuxPool :=
  { pool with live := Function.update pool.live id (fetchSub (pool.live id)) }

variable {pool : MuxPool} {addr : SocketAddr} {tunnel : Tunnel}

/-! ## Picking -/

theorem pickUnderCap_mem (h : pool.pickUnderCap addr = some tunnel) :
    tunnel ∈ pool.peers addr ∧ pool.load tunnel < streamsPerTunnel := by
  have hmem := List.argmin_mem (m := tunnel) h
  simpa using hmem

theorem pickUnderCap_eq_none (h : pool.pickUnderCap addr = none) (hmem : tunnel ∈ pool.peers addr) :
    streamsPerTunnel ≤ pool.load tunnel := by
  rw [pickUnderCap, List.argmin_eq_none, List.filter_eq_nil_iff] at h
  simpa using h tunnel hmem

theorem pickAny_mem (h : pool.pickAny addr = some tunnel) : tunnel ∈ pool.peers addr :=
  List.argmin_mem h

theorem pickAny_le (h : pool.pickAny addr = some tunnel) {other : Tunnel}
    (hother : other ∈ pool.peers addr) : pool.load tunnel ≤ pool.load other :=
  List.le_of_mem_argmin hother h

theorem pickAny_eq_none : pool.pickAny addr = none ↔ pool.peers addr = [] :=
  List.argmin_eq_none

theorem canGrow_iff : pool.canGrow addr = true ↔
    (pool.peers addr).length < maxTunnelsPerPeer := by
  simp [canGrow]

end MuxPool

end Interlink
