import Interlink.Foundation.Draining
import Interlink.Proxy.Loads
import Interlink.Proxy.Locks

/-!
# Connections of the outbound proxy come to an end

Whatever is interleaved with it, a connection makes a bounded number of steps: `route`
retries at most four times, and every way through an attempt is bounded.  And no
connection waits in vain: it can make a step, or it waits for a creation lock whose
holder can.
-/

namespace Interlink.OutboundProxy

open Interlink.Foundation

/-! ## The work of a connection -/

def Origin.attempts : Origin → Nat
  | .pooled attempts => attempts
  | .fresh _ => 0

def Subject.work : Subject → Nat
  | .tunnel attempts _ => 21 * attempts + 9
  | .stream _ _ => 12

/-- A bound on the steps that are left before the connection leaves `handle_connection`. -/
def Pc.work : Pc → Nat
  | .dropping _ => 1
  | .relaying _ => 2
  | .returning _ => 3
  | .picking attempts => 21 * attempts + 4
  | .evicting origin _ => 21 * origin.attempts + 5
  | .unreserving origin _ => 21 * origin.attempts + 6
  | .opening origin _ => 21 * origin.attempts + 7
  | .reserving origin _ => 21 * origin.attempts + 8
  | .evaluatingGlobal subject => subject.work
  | .evaluating subject => subject.work + 1
  | .fallingBack attempts => 21 * attempts + 11
  | .checkingGrowth attempts => 21 * attempts + 22
  | .rechecking attempts => 21 * attempts + 23
  | .locking attempts => 21 * attempts + 24
  | .spawning _ _ => 9
  | .pushing _ _ => 10
  | .numbering _ _ => 11
  | .caching _ _ _ => 14
  | .identifying _ _ => 15
  | .connecting _ => 16
  | .dialing _ => 17
  | .unlocking next => next.work + 1

def Conn.work : Conn → Nat
  | .finished => 0
  | .releasing => 1
  | .leaving => 2
  | .routing _ pc => pc.work + 2
  | .resolving _ => 91
  | .spawned _ => 92
  | .accepted _ => 93

def budget : Nat := 93

def Event.advances : Event → Option Nat
  | .run i | .discovered i _ | .handshaken i _ | .opened i _ | .relayEnd i _ => some i
  | .accept _ | .relay _ _ _ | .driverExit _ | .driverEvict _ => none

variable {proxy : OutboundProxy} {shared shared' : Shared} {s s' : State} {i : Nat}
  {addr : SocketAddr} {pc : Pc} {effect : Effect} {conn : Conn} {e : Event}
  {out : List Observation}

theorem work_leave_le (locked : Bool) (pc : Pc) : (leave locked pc).work ≤ pc.work + 1 := by
  cases locked with
  | false => exact Nat.le_succ _
  | true => exact Nat.le_refl _

theorem work_decided_lt (subject : Subject) (decision : Decision) :
    (decided subject decision).work < subject.work := by
  refine decided_cases (P := fun subject pc => pc.work < subject.work) ?_ ?_ ?_ ?_ ?_
    subject decision
  · intro attempts tunnel
    simp [Pc.work, Subject.work, Origin.attempts]
  · intro attempts tunnel
    simp only [Pc.work, Subject.work]
    omega
  · intro locked tls
    simp [Pc.work, Subject.work]
  · intro locked tls
    have := work_leave_le locked (.returning (.legacy tls))
    simp only [Pc.work, Subject.work] at this ⊢
    omega
  · intro locked tls
    have := work_leave_le locked (.returning .denied)
    simp only [Pc.work, Subject.work] at this ⊢
    omega

private theorem work_leave_returning_lt (locked : Bool) (route : Route) {n : Nat} (hn : 5 ≤ n) :
    (Conn.routing addr (leave locked (.returning route))).work < n + 2 := by
  have := work_leave_le locked (.returning route)
  simp only [Pc.work, Conn.work] at this ⊢
  omega

/-- Every branch but a relay of bytes lowers the work. -/
theorem Move.work_lt (h : Move proxy shared s i addr pc effect conn out) :
    conn.work < pc.work + 2 ∨ ∃ route, pc = .relaying route ∧ conn = .routing addr pc := by
  cases h
  case relay route direction data => exact .inr ⟨route, rfl, rfl⟩
  case handshakeError | identifyError | openFresh | evictFresh =>
    exact .inl (work_leave_returning_lt _ _ (by simp [Pc.work]))
  case decideNamespace subject decision hscan =>
    have := work_decided_lt subject decision
    simp only [Conn.work, Pc.work]
    omega
  case decideGlobal subject decision hscan =>
    have := work_decided_lt subject decision
    simp only [Conn.work, Pc.work]
    omega
  all_goals
    left
    simp only [Conn.work, Pc.work, Subject.work, Origin.attempts]
    omega

private theorem performed_turn {reaction : Reaction}
    (hi : s.conns[i]? = some (.routing addr pc))
    (hmove : ∀ {effect conn out}, reaction = some (effect, conn, out) →
      Move proxy shared s i addr pc effect conn out)
    (hrelaying : ∀ {effect conn out route}, pc = .relaying route →
      reaction = some (effect, conn, out) → conn ≠ .routing addr pc)
    (h : performed shared s i addr reaction = some (shared', s', out)) :
    Tasks.Turn Conn.work budget s.conns (some i) s'.conns := by
  obtain ⟨⟨effect, conn, out⟩, hreaction, heq⟩ := Option.map_eq_some_iff.mp h
  cases heq
  rcases (hmove hreaction).work_lt with hlt | ⟨route, hpc, hconn⟩
  · exact .advance hi hlt
  · exact absurd hconn (hrelaying hpc hreaction)

private theorem respond_turn (proxy : OutboundProxy) {react : SocketAddr → Pc → Reaction}
    (hi : s.conns[i]? = some conn)
    (hmove : ∀ {addr pc effect conn out}, react addr pc = some (effect, conn, out) →
      Move proxy shared s i addr pc effect conn out)
    (hrelaying : ∀ {addr route effect conn out},
      react addr (.relaying route) = some (effect, conn, out) →
        conn ≠ .routing addr (.relaying route))
    (h : respond shared s i react conn = some (shared', s', out)) :
    Tasks.Turn Conn.work budget s.conns (some i) s'.conns := by
  cases conn with
  | routing addr pc =>
      refine performed_turn hi hmove ?_ h
      rintro effect conn out route rfl hreact
      exact hrelaying hreact
  | _ => cases h

private theorem work_route_lt (proxy : OutboundProxy) : proxy.route.work + 2 < 91 := by
  unfold route
  split <;> decide

private theorem resolved_turn {target : UpstreamTarget}
    {result : Except InterlinkError SocketAddr} (hi : s.conns[i]? = some (.resolving target))
    (h : some (shared, resolved proxy s i result) = some (shared', s', out)) :
    Tasks.Turn Conn.work budget s.conns (some i) s'.conns := by
  cases result with
  | ok addr =>
      cases h
      exact .advance hi (work_route_lt proxy)
  | error error =>
      cases h
      exact .advance hi (by decide : Conn.leaving.work < 91)

private theorem runConn_turn (hi : s.conns[i]? = some conn)
    (h : runConn proxy shared s i conn = some (shared', s', out)) :
    Tasks.Turn Conn.work budget s.conns (some i) s'.conns := by
  cases conn with
  | accepted target =>
      cases h
      exact .advance hi (Nat.lt_succ_self 92)
  | spawned target =>
      cases h
      exact .advance hi (Nat.lt_succ_self 91)
  | resolving target =>
      simp only [runConn] at h
      split at h
      next => exact resolved_turn hi h
      next => cases h
  | routing addr pc =>
      refine performed_turn hi advance_move ?_ h
      rintro effect conn out route rfl hadvance
      cases hadvance
  | leaving =>
      cases h
      exact .advance hi (Nat.lt_succ_self 1)
  | releasing =>
      cases h
      exact .advance hi (Nat.lt_succ_self 0)
  | finished => cases h

theorem step_turn (h : proxy.step shared s e = some (shared', s', out)) :
    Tasks.Turn Conn.work budget s.conns e.advances s'.conns := by
  cases e with
  | accept originalDst =>
      cases step_change h with
      | refuse => exact .rest
      | saturate => exact .rest
      | accept => exact .arrive (Nat.le_refl 93)
      | enter he => cases he
      | unresolved he => cases he
      | move he => cases he
  | run i =>
      obtain ⟨conn, hi, hrun⟩ := Option.bind_eq_some_iff.mp h
      exact runConn_turn hi hrun
  | discovered i result =>
      obtain ⟨conn, hi, hdiscover⟩ := Option.bind_eq_some_iff.mp h
      cases conn with
      | resolving target =>
          simp only [discover] at hdiscover
          split at hdiscover
          next => exact resolved_turn hi hdiscover
          next => cases hdiscover
      | _ => cases hdiscover
  | handshaken i result =>
      obtain ⟨conn, hi, hrespond⟩ := Option.bind_eq_some_iff.mp h
      exact respond_turn proxy hi handshaken_move (by rintro _ _ _ _ _ ⟨⟩) hrespond
  | opened i ok =>
      obtain ⟨conn, hi, hrespond⟩ := Option.bind_eq_some_iff.mp h
      exact respond_turn proxy hi opened_move (by rintro _ _ _ _ _ ⟨⟩) hrespond
  | relay i direction data =>
      obtain ⟨conn, hi, hrespond⟩ := Option.bind_eq_some_iff.mp h
      cases conn with
      | routing addr pc =>
          cases pc <;> cases hrespond
          exact .same hi
      | _ => cases hrespond
  | relayEnd i result =>
      obtain ⟨conn, hi, hrespond⟩ := Option.bind_eq_some_iff.mp h
      refine respond_turn proxy hi relayEnd_move ?_ hrespond
      rintro addr route effect conn out hend
      cases hend
      simp
  | driverExit d =>
      obtain ⟨driver, hd, hexit⟩ := Option.bind_eq_some_iff.mp h
      cases driver <;> cases hexit
      exact .rest
  | driverEvict d =>
      obtain ⟨driver, hd, hevict⟩ := Option.bind_eq_some_iff.mp h
      cases driver <;> cases hevict
      exact .rest

/-! ## Who can go on -/

def Enabled (proxy : OutboundProxy) (shared : Shared) (s : State) (i : Nat) : Prop :=
  ∃ e, e.advances = some i ∧ proxy.step shared s e ≠ none

private theorem advance_ne_none (proxy : OutboundProxy) (shared : Shared) (i : Nat)
    (hlocking : ∀ attempts, pc = .locking attempts →
      s.pool.creating addr = none)
    (hconnecting : ∀ locked, pc ≠ .connecting locked)
    (hopening : ∀ origin tunnel, pc ≠ .opening origin tunnel)
    (hrelaying : ∀ route, pc ≠ .relaying route) : advance proxy shared s i addr pc ≠ none := by
  cases pc with
  | picking attempts =>
      cases attempts with
      | zero => simp [advance]
      | succ attempts =>
          simp only [advance]
          split <;> simp
  | locking attempts => simp [advance, hlocking attempts rfl]
  | connecting locked => exact absurd rfl (hconnecting locked)
  | opening origin tunnel => exact absurd rfl (hopening origin tunnel)
  | relaying route => exact absurd rfl (hrelaying route)
  | evicting origin tunnel => cases origin <;> simp [advance]
  | returning route => cases route <;> simp [advance]
  | dropping route => cases route <;> simp [advance]
  | rechecking attempts | checkingGrowth attempts | fallingBack attempts
  | identifying locked session | evaluating subject =>
      simp only [advance]
      split <;> simp
  | _ => simp [advance]

/-- A connection in `route` can go on, unless it waits for a lock that is taken. -/
theorem enabled_of_routing (hi : s.conns[i]? = some (.routing addr pc))
    (hlocking : ∀ attempts, pc = .locking attempts → s.pool.creating addr = none) :
    Enabled proxy shared s i := by
  by_cases hconnecting : ∃ locked, pc = .connecting locked
  · obtain ⟨locked, rfl⟩ := hconnecting
    exact ⟨.handshaken i (.error (.tls [])), rfl,
      by simp [step, hi, respond, performed, handshaken]⟩
  by_cases hopening : ∃ origin tunnel, pc = .opening origin tunnel
  · obtain ⟨origin, tunnel, rfl⟩ := hopening
    exact ⟨.opened i false, rfl, by simp [step, hi, respond, performed, opened]⟩
  by_cases hrelaying : ∃ route, pc = .relaying route
  · obtain ⟨route, rfl⟩ := hrelaying
    exact ⟨.relayEnd i none, rfl, by simp [step, hi, respond, performed, relayEnd]⟩
  have hadvance := advance_ne_none proxy shared i hlocking
    (not_exists.mp hconnecting) (fun origin tunnel hpc => hopening ⟨origin, tunnel, hpc⟩)
    (not_exists.mp hrelaying)
  exact ⟨.run i, rfl, by simpa [step, hi, runConn, performed] using hadvance⟩

theorem enabled_of_resolving {target : UpstreamTarget}
    (hi : s.conns[i]? = some (.resolving target)) : Enabled proxy shared s i := by
  cases hresolve : target.resolve proxy.hasDiscovery with
  | done result => exact ⟨.run i, rfl, by simp [step, hi, runConn, hresolve]⟩
  | lookup name port =>
      exact ⟨.discovered i (.error (.dnsResolution [])), rfl,
        by simp [step, hi, discover, hresolve]⟩

theorem Locks.holder_enabled (h : Locks s) (hheld : s.pool.creating addr = some i) :
    Enabled proxy shared s i := by
  obtain ⟨pc, hi, hlocked⟩ := h.held i addr hheld
  refine enabled_of_routing hi ?_
  rintro attempts rfl
  cases hlocked

/-- While a connection has not finished, some connection can go on. -/
theorem Locks.exists_enabled (h : Locks s) (hi : s.conns[i]? = some conn)
    (hconn : conn ≠ .finished) : ∃ j, Enabled proxy shared s j := by
  cases conn with
  | resolving target => exact ⟨i, enabled_of_resolving hi⟩
  | routing addr pc =>
      cases hcreating : s.pool.creating addr with
      | none => exact ⟨i, enabled_of_routing hi fun _ _ => hcreating⟩
      | some j => exact ⟨j, h.holder_enabled hcreating⟩
  | finished => exact absurd rfl hconn
  | _ => exact ⟨i, .run i, rfl, by simp [OutboundProxy.step, hi, runConn]⟩

theorem Locks.finished_of_stuck (h : Locks s) (proxy : OutboundProxy) (shared : Shared)
    (hstuck : ∀ i, ¬ Enabled proxy shared s i) : ∀ conn ∈ s.conns, conn = .finished := by
  intro conn hmem
  obtain ⟨i, hi⟩ := List.getElem?_of_mem hmem
  by_contra hconn
  obtain ⟨j, hj⟩ := h.exists_enabled hi hconn
  exact hstuck j hj

theorem Locks.creating_eq_none (h : Locks s) (hfinished : ∀ conn ∈ s.conns, conn = .finished)
    (addr : SocketAddr) : s.pool.creating addr = none := by
  cases hcreating : s.pool.creating addr with
  | none => rfl
  | some i =>
      obtain ⟨pc, hi, -⟩ := h.held i addr hcreating
      cases hfinished _ (List.mem_of_getElem? hi)

theorem Loads.live_eq_zero (h : Loads s) (hfinished : ∀ conn ∈ s.conns, conn = .finished)
    (id : Nat) : s.pool.live id = 0 := by
  have hcount : s.conns.countP (Conn.reserves id) = 0 := by
    refine List.countP_eq_zero.mpr fun conn hmem => ?_
    rw [hfinished conn hmem]
    simp [Conn.reserves, Conn.reservation]
  rw [h id, hcount]
  rfl

end Interlink.OutboundProxy
