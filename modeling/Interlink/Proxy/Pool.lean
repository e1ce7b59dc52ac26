import Interlink.Foundation.Trace
import Interlink.Proxy.Locks
import Interlink.Proxy.Node

/-!
# The tunnel pool over whole runs

The list of an address is what the trace says it is: the tunnels registered for
the address without those evicted from it.  The bound on its length rests on the
creation lock, which covers the check, the handshake and the registration.
-/

namespace Interlink.OutboundProxy

open Interlink.Foundation

/-! ## What the trace says about the pool -/

def registrations (trace : List Observation) : List (SocketAddr × Tunnel) :=
  trace.filterMap fun
    | .registered addr tunnel => some (addr, tunnel)
    | _ => none

def registeredAt (addr : SocketAddr) (trace : List Observation) : List Tunnel :=
  ((registrations trace).filter fun entry => entry.1 = addr).map Prod.snd

def tunnelsOf (addr : SocketAddr) (trace : List Observation) : List Tunnel :=
  (registeredAt addr trace).filter fun tunnel => .evicted addr tunnel.id ∉ trace

/-- Picks and evictions are of registered tunnels, and no evicted tunnel is picked. -/
def PoolOrdered (before : List Observation) : Observation → Prop
  | .picked _ addr tunnel => .registered addr tunnel ∈ before ∧ .evicted addr tunnel.id ∉ before
  | .evicted addr id => ∃ tunnel, .registered addr tunnel ∈ before ∧ tunnel.id = id
  | _ => True

section Trace

variable {addr : SocketAddr} {tunnel : Tunnel} {id : Nat} {trace out : List Observation}

theorem mem_registrations :
    (addr, tunnel) ∈ registrations trace ↔ .registered addr tunnel ∈ trace := by
  simp only [registrations, List.mem_filterMap]
  constructor
  · rintro ⟨o, ho, heq⟩
    split at heq <;> cases heq
    exact ho
  · exact fun h => ⟨_, h, rfl⟩

@[simp]
theorem registrations_append (trace out : List Observation) :
    registrations (trace ++ out) = registrations trace ++ registrations out :=
  List.filterMap_append

theorem registrations_evicted (trace : List Observation) (addr : SocketAddr) (id : Nat) :
    registrations (trace ++ [.evicted addr id]) = registrations trace := by
  rw [registrations_append]
  exact List.append_nil _

theorem mem_registeredAt :
    tunnel ∈ registeredAt addr trace ↔ .registered addr tunnel ∈ trace := by
  rw [← mem_registrations]
  simp [registeredAt]

theorem mem_tunnelsOf :
    tunnel ∈ tunnelsOf addr trace ↔
      .registered addr tunnel ∈ trace ∧ .evicted addr tunnel.id ∉ trace := by
  simp [tunnelsOf, mem_registeredAt]

theorem registeredAt_sublist (addr : SocketAddr) (trace : List Observation) :
    ((registeredAt addr trace).map Tunnel.id).Sublist
      ((registrations trace).map fun entry => entry.2.id) := by
  rw [registeredAt, List.map_map]
  exact List.filter_sublist.map _

def Observation.Steady : Observation → Prop
  | .registered _ _ => False
  | .evicted _ _ => False
  | _ => True

theorem registrations_of_steady (hout : ∀ o ∈ out, o.Steady) : registrations out = [] := by
  rw [registrations, List.filterMap_eq_nil_iff]
  intro o ho
  have := hout o ho
  cases o <;> first | rfl | exact this.elim

theorem evicted_append_of_steady (hout : ∀ o ∈ out, o.Steady) :
    .evicted addr id ∈ trace ++ out ↔ .evicted addr id ∈ trace := by
  rw [List.mem_append]
  exact or_iff_left fun hmem => hout _ hmem

theorem tunnelsOf_of_steady (hout : ∀ o ∈ out, o.Steady) :
    tunnelsOf addr (trace ++ out) = tunnelsOf addr trace := by
  simp only [tunnelsOf, registeredAt, registrations_append, registrations_of_steady hout,
    List.append_nil, evicted_append_of_steady hout]

theorem tunnelsOf_evicted (other : SocketAddr) :
    tunnelsOf other (trace ++ [.evicted addr id]) =
      if other = addr then (tunnelsOf other trace).filter fun tunnel => tunnel.id ≠ id
      else tunnelsOf other trace := by
  simp only [tunnelsOf, registeredAt, registrations_evicted]
  split
  next heq =>
    subst heq
    rw [List.filter_filter]
    refine List.filter_congr fun tunnel _ => ?_
    simp [and_comm]
  next hne =>
    refine List.filter_congr fun tunnel _ => ?_
    simp [hne]

theorem tunnelsOf_registered (other : SocketAddr) (hnew : .evicted addr tunnel.id ∉ trace) :
    tunnelsOf other (trace ++ [.registered addr tunnel]) =
      if other = addr then tunnelsOf other trace ++ [tunnel] else tunnelsOf other trace := by
  have hone : registrations [.registered addr tunnel] = [(addr, tunnel)] := rfl
  have hevicted : ∀ candidate : Tunnel,
      .evicted other candidate.id ∈ trace ++ [.registered addr tunnel] ↔
        .evicted other candidate.id ∈ trace := by simp
  simp only [tunnelsOf, registeredAt, registrations_append, hone, hevicted]
  split
  next heq =>
    subst heq
    simp [hnew]
  next hne => simp [Ne.symm hne]

end Trace

/-! ## Tunnels in the hands of a connection -/

def Pc.tunnel : Pc → Option Tunnel
  | .evaluating (.tunnel _ carrier) | .evaluatingGlobal (.tunnel _ carrier)
  | .spawning _ carrier | .reserving _ carrier | .opening _ carrier | .unreserving _ carrier
  | .evicting _ carrier | .returning (.muxStream carrier) | .relaying (.muxStream carrier)
  | .dropping (.muxStream carrier) => some carrier
  | .unlocking next => next.tunnel
  | _ => none

/-- A tunnel that has an id and is not in the list yet. -/
def Pc.pending : Pc → Option Tunnel
  | .pushing _ tunnel => some tunnel
  | .unlocking next => next.pending
  | _ => none

def Conn.tunnel : Conn → Option Tunnel
  | .routing _ pc => pc.tunnel
  | _ => none

def Conn.pending : Conn → Option Tunnel
  | .routing _ pc => pc.pending
  | _ => none

def Driver.runs (addr : SocketAddr) (tunnel : Tunnel) : Driver → Prop
  | .running other carrier | .exited other carrier => other = addr ∧ carrier = tunnel
  | .ended => False

@[simp]
theorem tunnel_leave (locked : Bool) (pc : Pc) : (leave locked pc).tunnel = pc.tunnel := by
  cases locked <;> rfl

@[simp]
theorem pending_leave (locked : Bool) (pc : Pc) : (leave locked pc).pending = pc.pending := by
  cases locked <;> rfl

theorem pending_decided (subject : Subject) (decision : Decision) :
    (decided subject decision).pending = none := by
  refine decided_cases (P := fun _ pc => pc.pending = none) ?_ ?_ ?_ ?_ ?_ subject decision
  · exact fun _ _ => rfl
  · exact fun _ _ => rfl
  · exact fun _ _ => rfl
  · exact fun locked _ => pending_leave locked _
  · exact fun locked _ => pending_leave locked _

theorem tunnel_of_decided {subject : Subject} {decision : Decision} {tunnel : Tunnel}
    (h : (decided subject decision).tunnel = some tunnel) :
    (Pc.evaluating subject).tunnel = some tunnel := by
  revert h
  refine decided_cases (P := fun subject pc => pc.tunnel = some tunnel →
    (Pc.evaluating subject).tunnel = some tunnel) ?_ ?_ ?_ ?_ ?_ subject decision
  · exact fun _ _ => id
  · exact fun _ _ h => by cases h
  · exact fun _ _ h => by cases h
  · intro locked _ h
    rw [tunnel_leave] at h
    cases h
  · intro locked _ h
    rw [tunnel_leave] at h
    cases h

theorem tunnel_evaluatingGlobal (subject : Subject) :
    (Pc.evaluatingGlobal subject).tunnel = (Pc.evaluating subject).tunnel := by
  cases subject <;> rfl

def Effect.steady : Effect → Bool
  | .takeId | .push _ | .spawn _ | .evict _ => false
  | _ => true

def Observation.bystands : Observation → Bool
  | .registered _ _ | .evicted _ _ | .picked _ _ _ => false
  | _ => true

inductive PoolMove (s : State) (i : Nat) (addr : SocketAddr) :
    Pc → Effect → Conn → List Observation → Prop
  | takeId {locked tunnel} {pc : Pc} (hid : tunnel.id = s.pool.nextId)
      (hpc : pc.pending = none) :
      PoolMove s i addr pc .takeId (.routing addr (.pushing locked tunnel)) []
  | push {locked tunnel} :
      PoolMove s i addr (.pushing locked tunnel) (.push tunnel)
        (.routing addr (.spawning locked tunnel)) [.registered addr tunnel]
  | evict {tunnel} {pc next : Pc} (hpc : pc.tunnel = some tunnel) (htunnel : next.tunnel = none)
      (hpending : next.pending = none) :
      PoolMove s i addr pc (.evict tunnel.id) (.routing addr next) [.evicted addr tunnel.id]
  | steady {pc : Pc} {effect : Effect} {conn : Conn} {out : List Observation}
      (hpeers : (effect.onPool i addr s.pool).peers = s.pool.peers)
      (hnextId : (effect.onPool i addr s.pool).nextId = s.pool.nextId)
      (htunnel : ∀ tunnel, conn.tunnel = some tunnel →
        pc.tunnel = some tunnel ∨ tunnel ∈ s.pool.peers addr)
      (hpending : conn.pending = pc.pending)
      (hspawn : ∀ tunnel, effect = .spawn tunnel → pc.tunnel = some tunnel)
      (hsteady : ∀ o ∈ out, o.Steady)
      (hpicked : ∀ j other tunnel, .picked j other tunnel ∈ out →
        other = addr ∧ tunnel ∈ s.pool.peers addr) :
      PoolMove s i addr pc effect conn out

section Moves

variable {proxy : OutboundProxy} {shared : Shared} {s : State} {i : Nat}
  {addr : SocketAddr} {pc : Pc} {effect : Effect} {conn : Conn} {out : List Observation}

private theorem PoolMove.keep (heffect : effect.steady = true)
    (htunnel : ∀ tunnel, conn.tunnel = some tunnel → pc.tunnel = some tunnel)
    (hpending : conn.pending = pc.pending) (hout : out.all Observation.bystands = true) :
    PoolMove s i addr pc effect conn out := by
  have hbystands := List.all_eq_true.mp hout
  refine .steady ?_ ?_ (fun tunnel h => .inl (htunnel tunnel h)) hpending ?_ (fun o ho => ?_)
    fun j other tunnel h => by cases hbystands _ h
  · cases effect <;> first | rfl | cases heffect
  · cases effect <;> first | rfl | cases heffect
  · rintro tunnel rfl
    cases heffect
  · cases o with
    | registered | evicted => cases hbystands _ ho
    | _ => trivial

private theorem PoolMove.pick {tunnel : Tunnel} {next : Pc} (hmem : tunnel ∈ s.pool.peers addr)
    (htunnel : next.tunnel = some tunnel) (hpending : next.pending = pc.pending) :
    PoolMove s i addr pc .none (.routing addr next) [.picked i addr tunnel] := by
  refine .steady rfl rfl (fun carrier h => ?_) hpending (by simp) (by simp [Observation.Steady])
    fun j other carrier h => ?_
  · cases htunnel.symm.trans h
    exact .inr hmem
  · obtain ⟨-, rfl, rfl⟩ : j = i ∧ other = addr ∧ carrier = tunnel := by simpa using h
    exact ⟨rfl, hmem⟩

theorem Move.poolMove (h : Move proxy shared s i addr pc effect conn out) :
    PoolMove s i addr pc effect conn out := by
  cases h
  case pick hpick => exact .pick (MuxPool.pickUnderCap_mem hpick).1 rfl rfl
  case recheck hpick => exact .pick (MuxPool.pickUnderCap_mem hpick).1 rfl rfl
  case fallBack hpick => exact .pick (MuxPool.pickAny_mem hpick) rfl rfl
  case number => exact .takeId rfl rfl
  case push => exact .push
  case spawn =>
    exact .steady rfl rfl (fun _ h => .inl h) rfl (by rintro _ ⟨⟩; rfl)
      (by simp [Observation.Steady]) (by simp)
  case evictPooled => exact .evict rfl rfl rfl
  case evictFresh => exact .evict rfl (tunnel_leave ..) (pending_leave ..)
  case decideNamespace =>
    exact .keep rfl (fun _ h => tunnel_of_decided h) (pending_decided ..) rfl
  case decideGlobal subject _ _ =>
    exact .keep rfl (fun _ h => (tunnel_evaluatingGlobal subject).trans (tunnel_of_decided h))
      (pending_decided ..) rfl
  case scan subject _ =>
    exact .keep rfl (fun _ h => (tunnel_evaluatingGlobal subject).symm.trans h) rfl rfl
  case relayEnd route result =>
    exact .keep rfl (by cases route <;> simp [Conn.tunnel, Pc.tunnel]) rfl rfl
  case handshakeError | identifyError | openFresh =>
    exact .keep rfl (by simp [Conn.tunnel, Pc.tunnel]) (pending_leave ..) rfl
  all_goals
    exact .keep rfl (by simp [Conn.tunnel, Pc.tunnel]) rfl rfl

end Moves

/-! ## The registry -/

/-- The pool agrees with the trace; every id has one tunnel, registered or pending. -/
structure Registry (trace : List Observation) (s : State) : Prop where
  peers : ∀ addr, s.pool.peers addr = tunnelsOf addr trace
  distinct : ((registrations trace).map fun entry => entry.2.id).Nodup
  numbered : ∀ entry ∈ registrations trace, entry.2.id < s.pool.nextId
  evicted : ∀ addr id, .evicted addr id ∈ trace →
    ∃ entry ∈ registrations trace, entry.2.id = id
  held : ∀ (j : Nat) (addr : SocketAddr) (pc : Pc), s.conns[j]? = some (.routing addr pc) →
    ∀ tunnel, pc.tunnel = some tunnel → .registered addr tunnel ∈ trace
  drivers : ∀ driver ∈ s.drivers, ∀ addr tunnel, driver.runs addr tunnel →
    .registered addr tunnel ∈ trace
  pending : ∀ (j : Nat) (addr : SocketAddr) (pc : Pc), s.conns[j]? = some (.routing addr pc) →
    ∀ tunnel, pc.pending = some tunnel → tunnel.id < s.pool.nextId ∧
      ∀ entry ∈ registrations trace, entry.2.id ≠ tunnel.id
  apart : ∀ (j k : Nat) (addrJ addrK : SocketAddr) (pcJ pcK : Pc) (tunnelJ tunnelK : Tunnel),
    s.conns[j]? = some (.routing addrJ pcJ) → s.conns[k]? = some (.routing addrK pcK) →
    pcJ.pending = some tunnelJ → pcK.pending = some tunnelK → tunnelJ.id = tunnelK.id → j = k
  ordered : Preceded PoolOrdered trace

def Inherits (s s' : State) : Prop :=
  ∀ (j : Nat) (addr : SocketAddr) (pc : Pc), s'.conns[j]? = some (.routing addr pc) →
    (pc.tunnel = none ∧ pc.pending = none) ∨
    ∃ old : Pc, s.conns[j]? = some (.routing addr old) ∧ pc.pending = old.pending ∧
      ∀ tunnel, pc.tunnel = some tunnel →
        old.tunnel = some tunnel ∨ tunnel ∈ s.pool.peers addr

section Registry

variable {proxy : OutboundProxy} {shared : Shared} {s s' : State} {i : Nat}
  {addr : SocketAddr} {pc : Pc} {tunnel : Tunnel} {effect : Effect} {conn : Conn} {e : Event}
  {trace out : List Observation}

theorem Registry.mem_peers (h : Registry trace s) :
    tunnel ∈ s.pool.peers addr ↔
      .registered addr tunnel ∈ trace ∧ .evicted addr tunnel.id ∉ trace := by
  rw [h.peers, mem_tunnelsOf]

theorem Registry.nodup_registered (h : Registry trace s) (addr : SocketAddr) :
    ((registeredAt addr trace).map Tunnel.id).Nodup :=
  h.distinct.sublist (registeredAt_sublist addr _)

theorem Registry.nodup_ids (h : Registry trace s) (addr : SocketAddr) :
    ((s.pool.peers addr).map Tunnel.id).Nodup := by
  rw [h.peers]
  exact (h.nodup_registered addr).sublist (List.filter_sublist.map _)

theorem Inherits.set (hi : s.conns[i]? = some (.routing addr pc))
    (hconns : s'.conns = s.conns.set i conn)
    (haddr : ∀ (other : SocketAddr) (next : Pc), conn = .routing other next → other = addr)
    (htunnel : ∀ tunnel, conn.tunnel = some tunnel →
      pc.tunnel = some tunnel ∨ tunnel ∈ s.pool.peers addr)
    (hpending : conn.pending = pc.pending) : Inherits s s' := by
  intro j other next hj
  rw [hconns] at hj
  rcases Tasks.getElem?_set_cases hj with ⟨rfl, rfl⟩ | ⟨-, hold⟩
  · obtain rfl := haddr other next rfl
    exact .inr ⟨pc, hi, hpending, htunnel⟩
  · exact .inr ⟨next, hold, rfl, fun _ htunnel => .inl htunnel⟩

theorem Inherits.held (hinherits : Inherits s s') (h : Registry trace s) {j : Nat}
    (hj : s'.conns[j]? = some (.routing addr pc)) (htunnel : pc.tunnel = some tunnel) :
    .registered addr tunnel ∈ trace := by
  rcases hinherits j addr pc hj with ⟨hnone, -⟩ | ⟨old, hold, -, hfrom⟩
  · simp [hnone] at htunnel
  · rcases hfrom tunnel htunnel with holdTunnel | hmem
    · exact h.held j addr old hold tunnel holdTunnel
    · exact (h.mem_peers.mp hmem).1

theorem Inherits.pending (hinherits : Inherits s s') {j : Nat}
    (hj : s'.conns[j]? = some (.routing addr pc)) (hpending : pc.pending = some tunnel) :
    ∃ old : Pc, s.conns[j]? = some (.routing addr old) ∧ old.pending = some tunnel := by
  rcases hinherits j addr pc hj with ⟨-, hnone⟩ | ⟨old, hold, heq, -⟩
  · simp [hnone] at hpending
  · exact ⟨old, hold, heq.symm.trans hpending⟩

theorem Inherits.apart (hinherits : Inherits s s') (h : Registry trace s)
    (j k : Nat) (addrJ addrK : SocketAddr) (pcJ pcK : Pc) (tunnelJ tunnelK : Tunnel)
    (hj : s'.conns[j]? = some (.routing addrJ pcJ))
    (hk : s'.conns[k]? = some (.routing addrK pcK)) (hpcJ : pcJ.pending = some tunnelJ)
    (hpcK : pcK.pending = some tunnelK) (hid : tunnelJ.id = tunnelK.id) : j = k := by
  obtain ⟨oldJ, holdJ, hpendJ⟩ := hinherits.pending hj hpcJ
  obtain ⟨oldK, holdK, hpendK⟩ := hinherits.pending hk hpcK
  exact h.apart j k addrJ addrK oldJ oldK tunnelJ tunnelK holdJ holdK hpendJ hpendK hid

theorem Registry.steady (h : Registry trace s) (hpeers : s'.pool.peers = s.pool.peers)
    (hnextId : s'.pool.nextId = s.pool.nextId) (hinherits : Inherits s s')
    (hdrivers : ∀ driver ∈ s'.drivers, ∀ addr tunnel, driver.runs addr tunnel →
      .registered addr tunnel ∈ trace)
    (hsteady : ∀ o ∈ out, o.Steady)
    (hpicked : ∀ j addr tunnel, .picked j addr tunnel ∈ out → tunnel ∈ s.pool.peers addr) :
    Registry (trace ++ out) s' where
  peers addr := by rw [hpeers, h.peers, tunnelsOf_of_steady hsteady]
  distinct := by simpa [registrations_of_steady hsteady] using h.distinct
  numbered := by simpa [registrations_of_steady hsteady, hnextId] using h.numbered
  evicted addr id hevicted := by
    rw [registrations_append, registrations_of_steady hsteady, List.append_nil]
    exact h.evicted addr id ((evicted_append_of_steady hsteady).mp hevicted)
  held j addr pc hj tunnel htunnel := List.mem_append_left out (hinherits.held h hj htunnel)
  drivers driver hmem addr tunnel hruns :=
    List.mem_append_left out (hdrivers driver hmem addr tunnel hruns)
  pending j addr pc hj tunnel hpending := by
    obtain ⟨old, hold, hpend⟩ := hinherits.pending hj hpending
    rw [hnextId, registrations_append, registrations_of_steady hsteady, List.append_nil]
    exact h.pending j addr old hold tunnel hpend
  apart := hinherits.apart h
  ordered := by
    refine h.ordered.append fun before o after hout => ?_
    cases o with
    | picked j addr tunnel =>
        have hmem := h.mem_peers.mp (hpicked j addr tunnel (by simp [hout]))
        have hbefore : ∀ o ∈ before, o.Steady := fun o ho => hsteady o (by simp [hout, ho])
        exact ⟨List.mem_append_left before hmem.1, fun hevicted =>
          hmem.2 ((evicted_append_of_steady hbefore).mp hevicted)⟩
    | evicted addr id => exact (hsteady (.evicted addr id) (by simp [hout])).elim
    | _ => trivial

theorem Registry.evict (h : Registry trace s) (hregistered : .registered addr tunnel ∈ trace)
    (hpeers : s'.pool.peers = (s.pool.evict addr tunnel.id).peers)
    (hnextId : s'.pool.nextId = s.pool.nextId) (hinherits : Inherits s s')
    (hdrivers : ∀ driver ∈ s'.drivers, driver = .ended ∨ driver ∈ s.drivers) :
    Registry (trace ++ [.evicted addr tunnel.id]) s' where
  peers other := by
    rw [hpeers, tunnelsOf_evicted, ← h.peers]
    simp only [MuxPool.evict, Function.update_apply]
    split
    next heq => rw [heq]
    next => rfl
  distinct := by
    rw [registrations_evicted]
    exact h.distinct
  numbered := by
    rw [registrations_evicted, hnextId]
    exact h.numbered
  evicted other id hevicted := by
    rw [registrations_evicted]
    refine (List.mem_append.mp hevicted).elim (h.evicted other id) fun hnew => ?_
    obtain ⟨rfl, rfl⟩ : other = addr ∧ id = tunnel.id := by simpa using hnew
    exact ⟨(other, tunnel), mem_registrations.mpr hregistered, rfl⟩
  held j other pc hj carrier htunnel :=
    List.mem_append_left _ (hinherits.held h hj htunnel)
  drivers driver hmem other carrier hruns := by
    rcases hdrivers driver hmem with rfl | hold
    · exact hruns.elim
    · exact List.mem_append_left _ (h.drivers driver hold other carrier hruns)
  pending j other pc hj carrier hpending := by
    obtain ⟨old, hold, hpend⟩ := hinherits.pending hj hpending
    rw [registrations_evicted, hnextId]
    exact h.pending j other old hold carrier hpend
  apart := hinherits.apart h
  ordered := h.ordered.snoc ⟨tunnel, hregistered, rfl⟩

private theorem Registry.takeId (h : Registry trace s) {locked : Bool}
    (hid : tunnel.id = s.pool.nextId) :
    Registry trace (s.perform i addr .takeId (.routing addr (.pushing locked tunnel))) where
  peers := h.peers
  distinct := h.distinct
  numbered entry hentry := Nat.lt_succ_of_lt (h.numbered entry hentry)
  evicted := h.evicted
  held j other pc hj carrier htunnel := by
    rcases Tasks.getElem?_set_cases hj with ⟨-, heq⟩ | ⟨-, hold⟩
    · cases heq
      cases htunnel
    · exact h.held j other pc hold carrier htunnel
  drivers := h.drivers
  pending j other pc hj carrier hpending := by
    rcases Tasks.getElem?_set_cases hj with ⟨-, heq⟩ | ⟨-, hold⟩
    · cases heq
      cases hpending
      rw [hid]
      exact ⟨Nat.lt_succ_self _, fun entry hentry => (h.numbered entry hentry).ne⟩
    · have hpend := h.pending j other pc hold carrier hpending
      exact ⟨Nat.lt_succ_of_lt hpend.1, hpend.2⟩
  apart j k addrJ addrK pcJ pcK tunnelJ tunnelK hj hk hpcJ hpcK heq := by
    rcases Tasks.getElem?_set_cases hj with ⟨rfl, hnewJ⟩ | ⟨-, holdJ⟩ <;>
      rcases Tasks.getElem?_set_cases hk with ⟨rfl, hnewK⟩ | ⟨-, holdK⟩
    · rfl
    · cases hnewJ
      cases hpcJ
      have := (h.pending k addrK pcK holdK tunnelK hpcK).1
      omega
    · cases hnewK
      cases hpcK
      have := (h.pending j addrJ pcJ holdJ tunnelJ hpcJ).1
      omega
    · exact h.apart j k addrJ addrK pcJ pcK tunnelJ tunnelK holdJ holdK hpcJ hpcK heq
  ordered := h.ordered

private theorem Registry.push (h : Registry trace s) {locked : Bool}
    (hi : s.conns[i]? = some (.routing addr (.pushing locked tunnel))) :
    Registry (trace ++ [.registered addr tunnel])
      (s.perform i addr (.push tunnel) (.routing addr (.spawning locked tunnel))) := by
  obtain ⟨hlt, hfresh⟩ := h.pending i addr _ hi tunnel rfl
  have hone : registrations (trace ++ [.registered addr tunnel]) =
      registrations trace ++ [(addr, tunnel)] := by rw [registrations_append]; rfl
  have hnew : .evicted addr tunnel.id ∉ trace := fun hevicted => by
    obtain ⟨entry, hentry, hid⟩ := h.evicted addr tunnel.id hevicted
    exact hfresh entry hentry hid
  refine ⟨fun other => ?_, ?_, ?_, fun other id hevicted => ?_,
    fun j other pc hj carrier htunnel => ?_,
    fun driver hmem other carrier hruns => ?_, fun j other pc hj carrier hpending => ?_,
    fun j k addrJ addrK pcJ pcK tunnelJ tunnelK hj hk hpcJ hpcK hid => ?_,
    h.ordered.snoc trivial⟩
  · rw [tunnelsOf_registered other hnew, ← h.peers]
    simp only [State.perform, Effect.onPool, MuxPool.push, Function.update_apply]
    split
    next heq => rw [heq]
    next => rfl
  · rw [hone, List.map_append]
    refine List.Nodup.append h.distinct (List.nodup_singleton _) fun id hold hid => ?_
    obtain ⟨entry, hentry, rfl⟩ := List.mem_map.mp hold
    exact hfresh entry hentry (List.mem_singleton.mp hid)
  · rw [hone]
    exact Tasks.forall_mem_append h.numbered hlt
  · obtain ⟨entry, hentry, hid⟩ := h.evicted other id (by simpa using hevicted)
    exact ⟨entry, by simp [hone, hentry], hid⟩
  · rcases Tasks.getElem?_set_cases hj with ⟨-, heq⟩ | ⟨-, hold⟩
    · cases heq
      cases htunnel
      simp
    · exact List.mem_append_left _ (h.held j other pc hold carrier htunnel)
  · exact List.mem_append_left _ (h.drivers driver hmem other carrier hruns)
  · rcases Tasks.getElem?_set_cases hj with ⟨-, heq⟩ | ⟨hne, hold⟩
    · cases heq
      cases hpending
    · have hpend := h.pending j other pc hold carrier hpending
      refine ⟨hpend.1, ?_⟩
      rw [hone]
      refine Tasks.forall_mem_append hpend.2 fun hid => hne ?_
      exact (h.apart i j addr other _ pc tunnel carrier hi hold rfl hpending hid).symm
  · rcases Tasks.getElem?_set_cases hj with ⟨-, heq⟩ | ⟨-, holdJ⟩
    · cases heq
      cases hpcJ
    · rcases Tasks.getElem?_set_cases hk with ⟨-, heq⟩ | ⟨-, holdK⟩
      · cases heq
        cases hpcK
      · exact h.apart j k addrJ addrK pcJ pcK tunnelJ tunnelK holdJ holdK hpcJ hpcK hid

theorem Registry.move (h : Registry trace s) (hi : s.conns[i]? = some (.routing addr pc))
    (hmove : Move proxy shared s i addr pc effect conn out) :
    Registry (trace ++ out) (s.perform i addr effect conn) := by
  have haddr : ∀ (other : SocketAddr) (next : Pc), conn = .routing other next → other = addr :=
    fun other next heq => hmove.routing_eq heq
  cases hmove.poolMove with
  | takeId hid =>
      rw [List.append_nil]
      exact h.takeId hid
  | push => exact h.push hi
  | @evict carrier _ next hpc htunnel hpending =>
      refine h.evict (h.held i addr pc hi carrier hpc) rfl rfl (fun j other pcJ hj => ?_)
        fun driver hmem => .inr hmem
      rcases Tasks.getElem?_set_cases hj with ⟨-, heq⟩ | ⟨-, hold⟩
      · cases heq
        exact .inl ⟨htunnel, hpending⟩
      · exact .inr ⟨pcJ, hold, rfl, fun _ h => .inl h⟩
  | steady hpeers hnextId htunnel hpending hspawn hsteady hpicked =>
      refine h.steady hpeers hnextId (.set hi rfl haddr htunnel hpending)
        (fun driver hmem other carrier hruns => ?_) hsteady fun j other carrier hmem => ?_
      · cases effect
        case spawn fresh =>
          rcases List.mem_append.mp hmem with hold | hnew
          · exact h.drivers driver hold other carrier hruns
          · cases List.mem_singleton.mp hnew
            obtain ⟨rfl, rfl⟩ := hruns
            exact h.held i addr pc hi fresh (hspawn fresh rfl)
        all_goals exact h.drivers driver hmem other carrier hruns
      · obtain ⟨rfl, hcarrier⟩ := hpicked j other carrier hmem
        exact hcarrier

theorem Registry.initial (proxy : OutboundProxy) : Registry [] proxy.initial where
  peers addr := rfl
  distinct := List.nodup_nil
  numbered := by simp [registrations]
  evicted := by simp
  held j addr pc hj := by simp [OutboundProxy.initial] at hj
  drivers := by simp [OutboundProxy.initial]
  pending j addr pc hj := by simp [OutboundProxy.initial] at hj
  apart j k addrJ addrK pcJ pcK tunnelJ tunnelK hj := by simp [OutboundProxy.initial] at hj
  ordered := Preceded.nil

theorem Registry.step (h : Registry trace s) (hview : View proxy shared s e s' out) :
    Registry (trace ++ out) s' := by
  cases hview with
  | quiet hquiet =>
      have hmetric : ∀ o ∈ out, o.Steady := fun o ho => by
        obtain ⟨metric, rfl⟩ := hquiet.out o ho
        trivial
      refine h.steady (by rw [hquiet.pool]) (by rw [hquiet.pool]) (fun j addr pc hj => ?_)
        (by rw [hquiet.drivers]; exact h.drivers) hmetric fun j addr tunnel hmem => ?_
      · exact .inr ⟨pc, (hquiet.conns j addr pc).mp hj, rfl, fun _ htunnel => .inl htunnel⟩
      · obtain ⟨metric, heq⟩ := hquiet.out _ hmem
        cases heq
  | enter _ hi addr =>
      refine h.steady rfl rfl (fun j other pc hj => ?_) h.drivers
        (by simp [Observation.Steady]) (by simp)
      rcases Tasks.getElem?_set_cases hj with ⟨-, heq⟩ | ⟨-, hold⟩
      · cases heq
        left
        unfold route
        split <;> exact ⟨rfl, rfl⟩
      · exact .inr ⟨pc, hold, rfl, fun _ htunnel => .inl htunnel⟩
  | move _ hi hmove => exact h.move hi hmove
  | @driverExit d addr tunnel hd =>
      refine h.steady rfl rfl (fun j other pc hj => ?_) ?_ (by simp [Observation.Steady])
        (by simp)
      · exact .inr ⟨pc, hj, rfl, fun _ htunnel => .inl htunnel⟩
      · exact Tasks.forall_mem_set h.drivers fun other carrier hruns =>
          h.drivers _ (List.mem_of_getElem? hd) other carrier hruns
  | @driverEvict d addr tunnel hd =>
      refine h.evict (h.drivers _ (List.mem_of_getElem? hd) addr tunnel ⟨rfl, rfl⟩) rfl rfl
        (fun j other pc hj => ?_) fun driver hmem => ?_
      · exact .inr ⟨pc, hj, rfl, fun _ htunnel => .inl htunnel⟩
      · exact (List.mem_or_eq_of_mem_set hmem).symm

end Registry

/-! ## Growth -/

/-- Between the check for room and the registration. -/
def Pc.growing : Pc → Bool
  | .dialing _ | .connecting _ | .identifying _ _ | .caching _ _ _
  | .evaluating (.stream _ _) | .evaluatingGlobal (.stream _ _)
  | .numbering _ _ | .pushing _ _ => true
  | _ => false

structure Growth (s : State) : Prop where
  locks : Locks s
  locked : ∀ (j : Nat) (addr : SocketAddr) (pc : Pc), s.conns[j]? = some (.routing addr pc) →
    pc.growing = true → pc.locked = true
  room : ∀ (j : Nat) (addr : SocketAddr) (pc : Pc), s.conns[j]? = some (.routing addr pc) →
    pc.growing = true → (s.pool.peers addr).length < maxTunnelsPerPeer
  bound : ∀ addr, (s.pool.peers addr).length ≤ maxTunnelsPerPeer

section Growth

variable {proxy : OutboundProxy} {shared : Shared} {s s' : State} {i : Nat}
  {addr : SocketAddr} {pc next : Pc} {effect : Effect} {conn : Conn} {e : Event}
  {out : List Observation}

theorem growing_of_unlocked (hpc : pc.unlocked = true) : pc.growing = false := by
  cases pc with
  | evaluating subject =>
      cases subject with
      | tunnel attempts tunnel => rfl
      | stream locked tls => cases hpc
  | fallingBack attempts => rfl
  | returning route => rfl
  | _ => cases hpc

theorem growing_leave (locked : Bool) (hpc : pc.unlocked = true) :
    (leave locked pc).growing = false := by
  cases locked with
  | false => exact growing_of_unlocked hpc
  | true => rfl

theorem growing_of_decided {subject : Subject} {decision : Decision}
    (h : (decided subject decision).growing = true) :
    ∃ locked tls, subject = .stream locked tls := by
  cases subject with
  | tunnel attempts tunnel => cases decision <;> cases h
  | stream locked tls => exact ⟨locked, tls, rfl⟩

/-- The window opens at the check for room, under the lock, and the lock is kept. -/
theorem Move.growing (h : Move proxy shared s i addr pc effect conn out)
    (honce : pc.UnlocksOnce) (hconn : conn = .routing addr next) (hnext : next.growing = true) :
    (pc.growing = true ∧ next.locked = pc.locked) ∨
      (s.pool.canGrow addr = true ∧ next.locked = true) := by
  cases h <;> cases hconn
  case grow hgrow => exact .inr ⟨hgrow, rfl⟩
  case unlock =>
    exact absurd ((growing_of_unlocked honce).symm.trans hnext) Bool.false_ne_true
  case handshakeError | identifyError | openFresh | evictFresh =>
    exact absurd ((growing_leave _ rfl).symm.trans hnext) Bool.false_ne_true
  case decideNamespace | decideGlobal =>
    obtain ⟨locked, tls, rfl⟩ := growing_of_decided hnext
    exact .inl ⟨rfl, locked_decided ..⟩
  case scan subject _ => exact .inl ⟨by cases subject <;> exact hnext, rfl⟩
  all_goals first
    | exact .inl ⟨rfl, rfl⟩
    | cases hnext

theorem length_evict (pool : MuxPool) (addr : SocketAddr) (id : Nat) (other : SocketAddr) :
    ((pool.evict addr id).peers other).length ≤ (pool.peers other).length := by
  simp only [MuxPool.evict, Function.update_apply]
  split
  next heq =>
    rw [heq]
    exact List.length_filter_le ..
  next => exact le_rfl

theorem Effect.length_onPool (pool : MuxPool) (heffect : ∀ tunnel, effect ≠ .push tunnel)
    (other : SocketAddr) :
    ((effect.onPool i addr pool).peers other).length ≤ (pool.peers other).length := by
  cases effect
  case push tunnel => exact absurd rfl (heffect tunnel)
  case evict id => exact length_evict pool addr id other
  all_goals exact le_rfl

private theorem Growth.shrink (h : Growth s) (hlocks : Locks s')
    (hlength : ∀ other, (s'.pool.peers other).length ≤ (s.pool.peers other).length)
    (hconns : ∀ (j : Nat) (other : SocketAddr) (pcJ : Pc),
      s'.conns[j]? = some (.routing other pcJ) → pcJ.growing = true →
      pcJ.locked = true ∧ (s.pool.peers other).length < maxTunnelsPerPeer) : Growth s' where
  locks := hlocks
  locked j other pcJ hj hgrowing := (hconns j other pcJ hj hgrowing).1
  room j other pcJ hj hgrowing := by
    have := (hconns j other pcJ hj hgrowing).2
    have := hlength other
    omega
  bound other := (hlength other).trans (h.bound other)

private theorem Growth.old (h : Growth s) {j : Nat}
    (hj : s.conns[j]? = some (.routing addr pc)) (hgrowing : pc.growing = true) :
    pc.locked = true ∧ (s.pool.peers addr).length < maxTunnelsPerPeer :=
  ⟨h.locked j addr pc hj hgrowing, h.room j addr pc hj hgrowing⟩

private theorem Growth.push (h : Growth s) {locked : Bool} {tunnel : Tunnel}
    (hi : s.conns[i]? = some (.routing addr (.pushing locked tunnel)))
    (hlocks : Locks (s.perform i addr (.push tunnel) (.routing addr (.spawning locked tunnel)))) :
    Growth (s.perform i addr (.push tunnel) (.routing addr (.spawning locked tunnel))) := by
  obtain ⟨hlocked, hroom⟩ := h.old hi rfl
  refine ⟨hlocks, fun j other pcJ hj hgrowing => ?_, fun j other pcJ hj hgrowing => ?_,
    fun other => ?_⟩
  · rcases Tasks.getElem?_set_cases hj with ⟨-, heq⟩ | ⟨-, hold⟩
    · cases heq
      cases hgrowing
    · exact h.locked j other pcJ hold hgrowing
  · rcases Tasks.getElem?_set_cases hj with ⟨-, heq⟩ | ⟨hne, hold⟩
    · cases heq
      cases hgrowing
    · have hother : other ≠ addr := by
        rintro rfl
        exact hne (h.locks.eq_of_locked hold hi (h.locked j other pcJ hold hgrowing) hlocked)
      simp only [State.perform, Effect.onPool, MuxPool.push, Function.update_apply, hother,
        if_false]
      exact h.room j other pcJ hold hgrowing
  · simp only [State.perform, Effect.onPool, MuxPool.push, Function.update_apply]
    split
    next =>
      rw [List.length_append, List.length_singleton]
      exact hroom
    next => exact h.bound other

theorem Growth.move (h : Growth s) (hi : s.conns[i]? = some (.routing addr pc))
    (hmove : Move proxy shared s i addr pc effect conn out) :
    Growth (s.perform i addr effect conn) := by
  have hlocks := h.locks.move hi hmove
  by_cases hpush : ∃ tunnel, effect = .push tunnel
  · obtain ⟨tunnel, rfl⟩ := hpush
    cases hmove
    exact h.push hi hlocks
  · refine h.shrink hlocks (Effect.length_onPool s.pool fun tunnel heq => hpush ⟨tunnel, heq⟩)
      fun j other pcJ hj hgrowing => ?_
    rcases Tasks.getElem?_set_cases hj with ⟨rfl, heq⟩ | ⟨-, hold⟩
    · obtain rfl := hmove.routing_eq heq
      rcases hmove.growing (h.locks.once j other pc hi) heq hgrowing with
        ⟨hpc, hlocked⟩ | ⟨hgrow, hlocked⟩
      · obtain ⟨hpcLocked, hroom⟩ := h.old hi hpc
        exact ⟨hlocked.trans hpcLocked, hroom⟩
      · exact ⟨hlocked, MuxPool.canGrow_iff.mp hgrow⟩
    · exact h.old hold hgrowing

theorem Growth.step (hmux : proxy.muxEnabled = true) (h : Growth s)
    (hview : View proxy shared s e s' out) : Growth s' := by
  have hlocks := h.locks.step hview
  cases hview with
  | quiet hquiet =>
      refine h.shrink hlocks (fun other => by rw [hquiet.pool]) fun j other pcJ hj hgrowing => ?_
      exact h.old ((hquiet.conns j other pcJ).mp hj) hgrowing
  | enter _ hi addr =>
      refine h.shrink hlocks (fun other => le_rfl) fun j other pcJ hj hgrowing => ?_
      rcases Tasks.getElem?_set_cases hj with ⟨-, heq⟩ | ⟨-, hold⟩
      · cases heq
        simp [route, hmux, Pc.growing] at hgrowing
      · exact h.old hold hgrowing
  | move _ hi hmove => exact h.move hi hmove
  | driverExit =>
      exact h.shrink hlocks (fun other => le_rfl) fun j other pcJ hj hgrowing =>
        h.old hj hgrowing
  | @driverEvict d addr tunnel hd =>
      exact h.shrink hlocks (length_evict s.pool addr tunnel.id) fun j other pcJ hj hgrowing =>
        h.old hj hgrowing

theorem Growth.initial (proxy : OutboundProxy) : Growth proxy.initial where
  locks := .initial proxy
  locked j addr pc hj := by simp [OutboundProxy.initial] at hj
  room j addr pc hj := by simp [OutboundProxy.initial] at hj
  bound addr := by simp [OutboundProxy.initial, MuxPool.new]

end Growth

end Interlink.OutboundProxy

namespace Interlink.Node

open Interlink.Foundation OutboundProxy

/--
In every reachable state the list of an address holds at most sixteen tunnels with
distinct ids: those registered for the address and not evicted.  An id is never used
twice, so a late eviction removes the tunnel it is meant for or nothing, and a tunnel
that was evicted is not picked.
-/
theorem peers_eq_registered_not_evicted {node : Node}
    (hmux : node.outbound.muxEnabled = true) {parse : X509Parser} {policy : PolicyEngine}
    {events : List Event} {s : State} {trace : List Observation}
    (hrun : node.step.exec (node.initial parse policy) events = some (s, trace))
    (addr : SocketAddr) :
    (s.outbound.pool.peers addr).length ≤ maxTunnelsPerPeer ∧
      ((s.outbound.pool.peers addr).map Tunnel.id).Nodup ∧
      s.outbound.pool.peers addr = tunnelsOf addr (outboundTrace trace) ∧
      ((registeredAt addr (outboundTrace trace)).map Tunnel.id).Nodup ∧
      Preceded PoolOrdered (outboundTrace trace) := by
  have hregistry : Registry (outboundTrace trace) s.outbound :=
    outbound_invariant (.initial node.outbound) (fun h hchange => h.step hchange.view) hrun
  have hgrowth : Growth s.outbound :=
    outbound_invariant (I := fun _ s => Growth s) (.initial node.outbound)
      (fun h hchange => h.step hmux hchange.view) hrun
  exact ⟨hgrowth.bound addr, hregistry.nodup_ids addr, hregistry.peers addr,
    hregistry.nodup_registered addr, hregistry.ordered⟩

section Example

open Example

/--
The second connection loses the tunnel of the first and opens one of its own; the
driver of the lost tunnel ends after that.
-/
private def lateExit : List OutboundProxy.Event :=
  [OutboundProxy.Event.accept none] ++ List.replicate 8 (OutboundProxy.Event.run 0) ++
    [OutboundProxy.Event.handshaken 0 muxHandshake] ++
    List.replicate 8 (OutboundProxy.Event.run 0) ++ [OutboundProxy.Event.opened 0 true] ++
    List.replicate 2 (OutboundProxy.Event.run 0) ++ [OutboundProxy.Event.accept none] ++
    List.replicate 7 (OutboundProxy.Event.run 1) ++ [OutboundProxy.Event.opened 1 false] ++
    List.replicate 7 (OutboundProxy.Event.run 1) ++
    [OutboundProxy.Event.handshaken 1 muxHandshake] ++
    List.replicate 7 (OutboundProxy.Event.run 1) ++ [OutboundProxy.Event.opened 1 true] ++
    List.replicate 2 (OutboundProxy.Event.run 1) ++
    [OutboundProxy.Event.driverExit 0, .driverEvict 0]

theorem lateExit_peers :
    ∃ last, sidecar.step.exec (sidecar.initial readSvid allowAny)
        (lateExit.map .outbound) = some last ∧
      (last.1.outbound.pool.peers application).map Tunnel.id = [1] ∧
      last.1.outbound.pool.peers application =
        tunnelsOf application (outboundTrace last.2) := by
  have hids : (sidecar.step.exec (sidecar.initial readSvid allowAny)
      (lateExit.map .outbound)).any (fun last =>
        (last.1.outbound.pool.peers application).map Tunnel.id = [1]) = true := by
    decide +kernel
  obtain ⟨last, hlast, hpeers⟩ := (Option.any_eq_true _ _).mp hids
  refine ⟨last, hlast, of_decide_eq_true hpeers, ?_⟩
  exact (peers_eq_registered_not_evicted rfl hlast application).2.2.1

end Example

end Interlink.Node
