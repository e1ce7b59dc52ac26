import Interlink.Foundation.Loop
import Interlink.Foundation.Selection
import Interlink.Proxy.Loads

/-!
# One call of `route`

A call of `route` that nothing interferes with.  The peer answers every handshake, a
stream opens on a fresh tunnel, and on a pooled tunnel it opens if the tunnel is live.
The call takes the tunnels of the pool in the order of their load; a dead one costs an
attempt, and there are four attempts.
-/

namespace Interlink

open Interlink.Foundation

/-! ## The pool between two attempts -/

namespace MuxPool

/-- The tunnels with spare capacity, in the order in which they are picked. -/
def queue (pool : MuxPool) (addr : SocketAddr) : List Tunnel :=
  Selection.ranked pool.load
    ((pool.peers addr).filter fun tunnel => pool.load tunnel < streamsPerTunnel)

structure Proper (pool : MuxPool) (addr : SocketAddr) : Prop where
  ids : ((pool.peers addr).map Tunnel.id).Nodup
  words : ∀ id, pool.live id < wordSize
  bound : (pool.peers addr).length ≤ maxTunnelsPerPeer

variable {pool : MuxPool} {addr : SocketAddr} {tunnel : Tunnel}

theorem pickUnderCap_eq_head? (pool : MuxPool) (addr : SocketAddr) :
    pool.pickUnderCap addr = (pool.queue addr).head? :=
  Selection.argmin_eq_head?_ranked _ _

@[simp]
theorem peers_evict (pool : MuxPool) (addr : SocketAddr) (id : Nat) :
    (pool.evict addr id).peers addr = (pool.peers addr).filter fun tunnel => tunnel.id ≠ id := by
  simp [evict]

theorem queue_evict (hproper : pool.Proper addr) (h : pool.pickUnderCap addr = some tunnel) :
    (pool.evict addr tunnel.id).queue addr = (pool.queue addr).tail := by
  have hids : (((pool.peers addr).filter fun tunnel =>
      pool.load tunnel < streamsPerTunnel).map Tunnel.id).Nodup :=
    hproper.ids.sublist (List.filter_sublist.map _)
  have htail := Selection.ranked_filter hids h
  rw [List.filter_comm] at htail
  rw [queue, peers_evict]
  exact htail

theorem queue_eq_nil_iff : pool.queue addr = [] ↔ pool.pickUnderCap addr = none := by
  rw [pickUnderCap_eq_head?, List.head?_eq_none_iff]

theorem pickUnderCap_evict_eq_none (h : pool.pickUnderCap addr = none) (id : Nat) :
    (pool.evict addr id).pickUnderCap addr = none := by
  rw [pickUnderCap, List.argmin_eq_none, peers_evict, List.filter_eq_nil_iff]
  intro tunnel hmem
  have hload := pickUnderCap_eq_none h (List.mem_of_mem_filter hmem)
  simpa [load, evict] using hload

theorem Proper.evict (h : pool.Proper addr) (id : Nat) : (pool.evict addr id).Proper addr where
  ids := by
    rw [peers_evict]
    exact h.ids.sublist (List.filter_sublist.map _)
  words := h.words
  bound := by
    rw [peers_evict]
    exact (List.length_filter_le _ _).trans h.bound

theorem Proper.canGrow_evict (h : pool.Proper addr) (hmem : tunnel ∈ pool.peers addr) :
    ((pool.evict addr tunnel.id).peers addr).length < maxTunnelsPerPeer := by
  rw [peers_evict]
  refine lt_of_lt_of_le ?_ h.bound
  exact List.length_filter_lt_length_iff_exists.mpr ⟨tunnel, hmem, by simp⟩

theorem unlock_lock (h : pool.creating addr = none) (task : Nat) :
    (pool.lock addr task).unlock addr = pool := by
  obtain ⟨peers, creating, live, nextId⟩ := pool
  simp only [lock, unlock, Function.update_idem, mk.injEq, true_and, and_true]
  rw [← h, Function.update_eq_self]

theorem fetchSub_fetchAdd {n : Nat} (h : n < wordSize) : fetchSub (fetchAdd n) = n := by
  unfold fetchSub fetchAdd wordSize at *
  omega

theorem unreserve_reserve {id : Nat} (h : pool.live id < wordSize) :
    (pool.reserve id).unreserve id = pool := by
  obtain ⟨peers, creating, live, nextId⟩ := pool
  simp only [reserve, unreserve, Function.update_idem, Function.update_self, mk.injEq, true_and,
    and_true]
  rw [fetchSub_fetchAdd h, Function.update_eq_self]

end MuxPool

namespace OutboundProxy

theorem Pooled.proper {trace : List Observation} {s : State} (h : Pooled trace s)
    (addr : SocketAddr) : s.pool.Proper addr where
  ids := h.registry.nodup_ids addr
  words := fun id => by
    rw [h.loads id]
    exact Nat.mod_lt _ (by decide)
  bound := h.growth.bound addr

/-! ## The call -/

/--
What the call meets: which tunnels of the pool still open streams, and what a handshake
with the address gives.
-/
structure World where
  live : Tunnel → Bool
  handshake : Handshake

namespace World

def event (world : World) (i : Nat) : Pc → Event
  | .connecting _ => .handshaken i (.ok world.handshake)
  | .opening (.pooled _) tunnel => .opened i (world.live tunnel)
  | .opening (.fresh _) _ => .opened i true
  | _ => .run i

def next (world : World) (proxy : OutboundProxy) (i : Nat) :
    Shared × State → Option ((Shared × State) ⊕ Route)
  | (shared, s) =>
      match s.conns[i]? with
      | some (.routing _ (.returning route)) => some (.inr route)
      | some (.routing _ pc) =>
          (step proxy shared s (world.event i pc)).map fun (shared', s', _) => .inl (shared', s')
      | _ => none

def Admits (world : World) (proxy : OutboundProxy) (shared : Shared) (sessions : Nat) : Prop :=
  ∃ peer, (extractIdentity shared.parse shared.identityCache
        (world.handshake.session sessions) = .cached peer ∨
      ∃ leafDer, extractIdentity shared.parse shared.identityCache
        (world.handshake.session sessions) = .parsed leafDer peer) ∧
    shared.policy.evaluate proxy.localId peer = .allow

def Dead (world : World) (proxy : OutboundProxy) (shared : Shared) (tunnel : Tunnel) : Prop :=
  shared.policy.evaluate proxy.localId tunnel.peerIdentity = .allow ∧ world.live tunnel = false

end World

/-- The first tunnels of a queue are dead, as many as there are attempts. -/
def Spent (dead : Tunnel → Prop) (attempts : Nat) (queue : List Tunnel) : Prop :=
  attempts ≤ queue.length ∧ ∀ tunnel ∈ queue.take attempts, dead tunnel

section Spent

variable {dead : Tunnel → Prop} {attempts : Nat} {tunnel : Tunnel} {queue : List Tunnel}

theorem spent_zero : Spent dead 0 queue := by
  simp [Spent]

theorem not_spent_nil : ¬ Spent dead (attempts + 1) [] := by
  simp [Spent]

theorem spent_cons :
    Spent dead (attempts + 1) (tunnel :: queue) ↔ dead tunnel ∧ Spent dead attempts queue := by
  simp only [Spent, List.length_cons, Nat.add_le_add_iff_right, List.take_succ_cons,
    List.forall_mem_cons]
  tauto

end Spent

/-! ## Where the call stands -/

structure Stands (i : Nat) (addr : SocketAddr) (pc : Pc) (pool : MuxPool) (sessions : Nat)
    (s : State) : Prop where
  conn : s.conns[i]? = some (.routing addr pc)
  pool : s.pool = pool
  sessions : s.sessions = sessions

section Call

variable {proxy : OutboundProxy} {world : World} {i : Nat} {addr : SocketAddr} {pc next : Pc}
  {shared : Shared} {pool : MuxPool} {sessions attempts : Nat} {P : Route → Prop}
  {effect : Effect} {tunnel : Tunnel}

def Leads (proxy : OutboundProxy) (world : World) (i : Nat) (addr : SocketAddr) (shared : Shared)
    (pc : Pc) (pool : MuxPool) (sessions : Nat) (P : Route → Prop) : Prop :=
  ∀ s, Stands i addr pc pool sessions s → Loop.Ends (world.next proxy i) (shared, s) P

theorem Stands.perform {s : State} (h : Stands i addr pc pool sessions s) (effect : Effect)
    (next : Pc) :
    Stands i addr next (effect.onPool i addr pool) (effect.onSessions sessions)
      (s.perform i addr effect (.routing addr next)) where
  conn := by
    have hlt := (List.getElem?_eq_some_iff.mp h.conn).1
    simp [State.perform, hlt]
  pool := by rw [State.perform, h.pool]
  sessions := by rw [State.perform, h.sessions]

theorem leads_returning {route : Route} (h : P route) :
    Leads proxy world i addr shared (.returning route) pool sessions P := by
  intro s hs
  exact .done (by simp [World.next, hs.conn]) h

private theorem next_eq {s : State} (hs : Stands i addr pc pool sessions s)
    (hpc : ∀ route, pc ≠ .returning route) :
    world.next proxy i (shared, s) =
      (step proxy shared s (world.event i pc)).map fun (shared', s', _) => .inl (shared', s') := by
  simp only [World.next, hs.conn]

theorem leads_of_run {out : State → List Observation} (hpc : ∀ route, pc ≠ .returning route)
    (hevent : world.event i pc = .run i)
    (hadvance : ∀ s, s.pool = pool →
      advance proxy shared s i addr pc = some (effect, .routing addr next, out s))
    (hrest : Leads proxy world i addr (Shared.perform shared effect) next
      (effect.onPool i addr pool) (effect.onSessions sessions) P) :
    Leads proxy world i addr shared pc pool sessions P := by
  intro s hs
  refine .step ?_ (hrest _ (hs.perform effect next))
  rw [next_eq hs hpc, hevent]
  simp [step, hs.conn, runConn, hadvance s hs.pool, performed]

theorem leads_of_quiet {out : State → List Observation} (hpc : ∀ route, pc ≠ .returning route)
    (hevent : world.event i pc = .run i)
    (hadvance : ∀ s, s.pool = pool →
      advance proxy shared s i addr pc = some (.none, .routing addr next, out s))
    (hrest : Leads proxy world i addr shared next pool sessions P) :
    Leads proxy world i addr shared pc pool sessions P :=
  leads_of_run hpc hevent hadvance hrest

theorem leads_connecting {locked : Bool}
    (hrest : Leads proxy world i addr shared
      (.identifying locked (world.handshake.session sessions)) pool (sessions + 1) P) :
    Leads proxy world i addr shared (.connecting locked) pool sessions P := by
  intro s hs
  refine .step ?_ (hrest _ (hs.perform .session _))
  rw [next_eq hs (by simp)]
  simp [step, World.event, hs.conn, hs.sessions, respond, handshaken, performed, Shared.perform,
    Effect.onCache]

theorem leads_opening {origin : Origin} {ok : Bool}
    (hevent : world.event i (.opening origin tunnel) = .opened i ok)
    (hopened : ∃ out, opened i addr ok (.opening origin tunnel) =
      some (.none, .routing addr next, out))
    (hrest : Leads proxy world i addr shared next pool sessions P) :
    Leads proxy world i addr shared (.opening origin tunnel) pool sessions P := by
  intro s hs
  refine .step ?_ (hrest _ (hs.perform .none _))
  obtain ⟨out, hopened⟩ := hopened
  rw [next_eq hs (by simp), hevent]
  simp [step, hs.conn, respond, hopened, performed, Shared.perform, Effect.onCache]

/-! ## A tunnel of the pool -/

theorem leads_evaluating {subject : Subject}
    (hrest : Leads proxy world i addr shared
      (decided subject (shared.policy.evaluate proxy.localId subject.peer)) pool sessions P) :
    Leads proxy world i addr shared (.evaluating subject) pool sessions P := by
  rw [PolicyEngine.evaluate] at hrest
  cases hscan : shared.policy.scanNamespace proxy.localId subject.peer with
  | some decision =>
      rw [hscan, Option.getD_some] at hrest
      exact leads_of_quiet (by simp) rfl
        (fun s _ => by simp only [advance, hscan, conclude]; rfl) hrest
  | none =>
      rw [hscan, Option.getD_none] at hrest
      refine leads_of_quiet (by simp) rfl (fun s _ => by simp only [advance, hscan]; rfl) ?_
      exact leads_of_quiet (by simp) rfl (fun s _ => by simp only [advance, conclude]; rfl) hrest

/-- A dead tunnel is evicted and an attempt is used up. -/
theorem leads_evaluating_tunnel (hword : pool.live tunnel.id < wordSize)
    (hdead : world.Dead proxy shared tunnel →
      Leads proxy world i addr shared (.picking attempts) (pool.evict addr tunnel.id) sessions P)
    (hfine : ¬ world.Dead proxy shared tunnel → ∀ route, route ≠ .failed → P route) :
    Leads proxy world i addr shared (.evaluating (.tunnel attempts tunnel)) pool sessions P := by
  refine leads_evaluating ?_
  cases hpolicy : shared.policy.evaluate proxy.localId tunnel.peerIdentity with
  | deny reason =>
      simp only [Subject.peer, hpolicy, decided]
      refine leads_returning (hfine ?_ _ (by simp))
      simp [World.Dead, hpolicy]
  | allow =>
      simp only [Subject.peer, hpolicy, decided]
      refine leads_of_run (by simp) rfl (fun s _ => rfl) ?_
      cases hlive : world.live tunnel with
      | true =>
          refine leads_opening (by simp [World.event, hlive]; rfl) ⟨_, rfl⟩ ?_
          refine leads_returning (hfine ?_ _ (by simp))
          simp [World.Dead, hlive]
      | false =>
          refine leads_opening (by simp [World.event, hlive]; rfl) ⟨_, rfl⟩ ?_
          refine leads_of_run (by simp) rfl (fun s _ => rfl) ?_
          refine leads_of_run (by simp) rfl (fun s _ => rfl) ?_
          have hpool : ((pool.reserve tunnel.id).unreserve tunnel.id).evict addr tunnel.id =
              pool.evict addr tunnel.id := by rw [MuxPool.unreserve_reserve hword]
          have hrest := hdead ⟨hpolicy, hlive⟩
          rw [← hpool] at hrest
          exact hrest

/-! ## A fresh connection -/

theorem leads_leave {locked : Bool} {route : Route} (h : P route) :
    Leads proxy world i addr shared (leave locked (.returning route)) pool sessions P := by
  cases locked with
  | false => exact leads_returning h
  | true => exact leads_of_run (by simp [leave]) rfl (fun s _ => rfl) (leads_returning h)

theorem leads_decided_stream {locked : Bool} {tls : TlsStream}
    (hgood : ∀ route, route ≠ .failed → P route) :
    Leads proxy world i addr shared (decided (.stream locked tls) .allow) pool sessions P := by
  simp only [decided]
  split
  next =>
    refine leads_of_run (by simp) rfl (fun s hs => by simp only [advance, hs]; rfl) ?_
    refine leads_of_run (by simp) rfl (fun s _ => rfl) ?_
    refine leads_of_run (by simp) rfl (fun s _ => rfl) ?_
    refine leads_of_run (by simp) rfl (fun s _ => rfl) ?_
    refine leads_opening rfl ⟨_, rfl⟩ ?_
    exact leads_leave (hgood _ (by simp))
  next => exact leads_leave (hgood _ (by simp))

theorem leads_dialing {locked : Bool} (hadmits : world.Admits proxy shared sessions)
    (hgood : ∀ route, route ≠ .failed → P route) :
    Leads proxy world i addr shared (.dialing locked) pool sessions P := by
  obtain ⟨peer, hpeer, hpolicy⟩ := hadmits
  refine leads_of_quiet (by simp) rfl (fun s _ => rfl) (leads_connecting ?_)
  rcases hpeer with hcached | ⟨leafDer, hparsed⟩
  · refine leads_of_quiet (by simp) rfl (fun s _ => by simp only [advance, hcached]; rfl) ?_
    refine leads_evaluating ?_
    simp only [Subject.peer, hpolicy]
    exact leads_decided_stream hgood
  · refine leads_of_quiet (by simp) rfl (fun s _ => by simp only [advance, hparsed]; rfl) ?_
    refine leads_of_run (by simp) rfl (fun s _ => rfl) (leads_evaluating ?_)
    simp only [Subject.peer, Shared.perform, hpolicy]
    exact leads_decided_stream hgood

/-! ## The attempts -/

theorem leads_locking (hfree : pool.creating addr = none)
    (hpick : pool.pickUnderCap addr = none)
    (hgrow : pool.canGrow addr = true →
      Leads proxy world i addr shared (.dialing true) (pool.lock addr i) sessions P)
    (hfull : pool.canGrow addr = false →
      Leads proxy world i addr shared (.fallingBack attempts) pool sessions P) :
    Leads proxy world i addr shared (.locking attempts) pool sessions P := by
  have hpick' : (pool.lock addr i).pickUnderCap addr = none := hpick
  refine leads_of_run (by simp) rfl (fun s hs => by simp only [advance, hs, hfree]; rfl) ?_
  change Leads proxy world i addr shared (.rechecking attempts) (pool.lock addr i) sessions P
  refine leads_of_quiet (by simp) rfl (fun s hs => by simp only [advance, hs, hpick']; rfl) ?_
  cases hgrows : pool.canGrow addr with
  | true =>
      have hgrows' : (pool.lock addr i).canGrow addr = true := hgrows
      exact leads_of_quiet (by simp) rfl
        (fun s hs => by simp only [advance, hs, hgrows']; rfl) (hgrow hgrows)
  | false =>
      have hgrows' : (pool.lock addr i).canGrow addr = false := hgrows
      refine leads_of_quiet (by simp) rfl
        (fun s hs => by simp only [advance, hs, hgrows']; rfl) ?_
      refine leads_of_run (by simp) rfl (fun s _ => rfl) ?_
      have hrest := hfull hgrows
      rw [← MuxPool.unlock_lock hfree i] at hrest
      exact hrest

theorem leads_picking_some (hproper : pool.Proper addr)
    (hpick : pool.pickUnderCap addr = some tunnel)
    (hrest : Leads proxy world i addr shared (.picking attempts) (pool.evict addr tunnel.id)
      sessions fun route => route = .failed ↔
        Spent (world.Dead proxy shared) attempts ((pool.evict addr tunnel.id).queue addr)) :
    Leads proxy world i addr shared (.picking (attempts + 1)) pool sessions fun route =>
      route = .failed ↔ Spent (world.Dead proxy shared) (attempts + 1) (pool.queue addr) := by
  have hhead := hpick
  rw [MuxPool.pickUnderCap_eq_head?] at hhead
  obtain ⟨rest, hqueue⟩ := List.head?_eq_some_iff.mp hhead
  rw [MuxPool.queue_evict hproper hpick, hqueue, List.tail_cons] at hrest
  rw [hqueue, spent_cons]
  refine leads_of_quiet (by simp) rfl (fun s hs => by simp only [advance, hs, hpick]; rfl) ?_
  refine leads_evaluating_tunnel (hproper.words _) (fun hdead => ?_) fun hfine => ?_
  · simpa only [hdead, true_and] using hrest
  · intro route hroute
    exact iff_of_false hroute fun hspent => hfine hspent.1

theorem leads_picking (hadmits : world.Admits proxy shared sessions)
    (hfree : pool.creating addr = none) (hproper : pool.Proper addr)
    (hroom : pool.canGrow addr = true) :
    Leads proxy world i addr shared (.picking attempts) pool sessions fun route =>
      route = .failed ↔ Spent (world.Dead proxy shared) attempts (pool.queue addr) := by
  induction attempts generalizing pool with
  | zero =>
      refine leads_of_quiet (by simp) rfl (fun s _ => rfl) (leads_returning ?_)
      exact iff_of_true rfl spent_zero
  | succ attempts ih =>
      cases hpick : pool.pickUnderCap addr with
      | none =>
          refine leads_of_quiet (by simp) rfl
            (fun s hs => by simp only [advance, hs, hpick]; rfl) ?_
          refine leads_locking hfree hpick (fun _ => ?_) fun hfull => ?_
          · refine leads_dialing hadmits fun route hroute => ?_
            rw [MuxPool.queue_eq_nil_iff.mpr hpick]
            exact iff_of_false hroute not_spent_nil
          · rw [hroom] at hfull
            cases hfull
      | some tunnel =>
          have hmem := (MuxPool.pickUnderCap_mem hpick).1
          exact leads_picking_some hproper hpick
            (ih hfree (hproper.evict _) (MuxPool.canGrow_iff.mpr (hproper.canGrow_evict hmem)))

/--
With two attempts or more the pool may also be full: the eviction of its first dead tunnel
makes room.
-/
theorem leads_picking_full (hadmits : world.Admits proxy shared sessions)
    (hfree : pool.creating addr = none) (hproper : pool.Proper addr) :
    Leads proxy world i addr shared (.picking (attempts + 2)) pool sessions fun route =>
      route = .failed ↔ Spent (world.Dead proxy shared) (attempts + 2) (pool.queue addr) := by
  cases hroom : pool.canGrow addr with
  | true => exact leads_picking hadmits hfree hproper hroom
  | false =>
      have hevict : ∀ tunnel ∈ pool.peers addr, ∀ left,
          Leads proxy world i addr shared (.picking left) (pool.evict addr tunnel.id) sessions
            fun route => route = .failed ↔ Spent (world.Dead proxy shared) left
              ((pool.evict addr tunnel.id).queue addr) := by
        intro tunnel hmem left
        exact leads_picking hadmits hfree (hproper.evict _)
          (MuxPool.canGrow_iff.mpr (hproper.canGrow_evict hmem))
      cases hpick : pool.pickUnderCap addr with
      | some tunnel =>
          exact leads_picking_some hproper hpick
            (hevict tunnel (MuxPool.pickUnderCap_mem hpick).1 _)
      | none =>
          have hnone : ¬ Spent (world.Dead proxy shared) (attempts + 2) (pool.queue addr) := by
            rw [MuxPool.queue_eq_nil_iff.mpr hpick]
            exact not_spent_nil
          refine leads_of_quiet (by simp) rfl
            (fun s hs => by simp only [advance, hs, hpick]; rfl) ?_
          refine leads_locking hfree hpick (fun hgrow => ?_) fun _ => ?_
          · rw [hroom] at hgrow
            cases hgrow
          cases hany : pool.pickAny addr with
          | none =>
              have hnil := MuxPool.pickAny_eq_none.mp hany
              simp [MuxPool.canGrow, hnil, maxTunnelsPerPeer] at hroom
          | some tunnel =>
              refine leads_of_quiet (by simp) rfl
                (fun s hs => by simp only [advance, hs, hany]; rfl) ?_
              refine leads_evaluating_tunnel (hproper.words _) (fun _ => ?_) fun _ => ?_
              · have hrest := hevict tunnel (MuxPool.pickAny_mem hany) (attempts + 1)
                have hqueue : (pool.evict addr tunnel.id).queue addr = [] :=
                  MuxPool.queue_eq_nil_iff.mpr (MuxPool.pickUnderCap_evict_eq_none hpick _)
                rw [hqueue] at hrest
                simpa only [hnone, not_spent_nil] using hrest
              · intro route hroute
                exact iff_of_false hroute hnone

end Call

/--
With a peer that is there for a fresh connection, the call fails just when the first four
tunnels with spare capacity are all dead.
-/
theorem route_not_failed_iff {proxy : OutboundProxy} {world : World} {i : Nat}
    {addr : SocketAddr} {shared : Shared} {s : State} (hmux : proxy.muxEnabled = true)
    (hcall : s.conns[i]? = some (.routing addr proxy.route))
    (hproper : s.pool.Proper addr) (hfree : s.pool.creating addr = none)
    (hadmits : world.Admits proxy shared s.sessions) :
    ∃ route, (∀ route', Loop.Returns (world.next proxy i) (shared, s) route' ↔ route' = route) ∧
      (route ≠ .failed ↔ ¬ Spent (world.Dead proxy shared) 4 (s.pool.queue addr)) := by
  rw [route, if_pos hmux] at hcall
  have hleads : Leads proxy world i addr shared (.picking (2 + 2)) s.pool s.sessions _ :=
    leads_picking_full hadmits hfree hproper
  obtain ⟨route, hunique, hroute⟩ := (hleads s ⟨hcall, rfl, rfl⟩).exists_unique
  exact ⟨route, hunique, not_congr hroute⟩

end OutboundProxy

namespace Node

open OutboundProxy

theorem proper_of_exec {node : Node} (hmux : node.outbound.muxEnabled = true)
    {parse : X509Parser} {policy : PolicyEngine} {events : List Event} {s : State}
    {trace : List Observation}
    (hrun : node.step.exec (node.initial parse policy) events = some (s, trace))
    (addr : SocketAddr) : s.outbound.pool.Proper addr := by
  have hpooled : Pooled (outboundTrace trace) s.outbound :=
    outbound_invariant (.initial node.outbound) (fun h hchange => h.step hmux hchange.view) hrun
  exact hpooled.proper addr

section Example

open Example

/-- Four idle tunnels, left by 601 streams that have ended. -/
private def idle (id : Nat) : Tunnel :=
  ⟨id, workload, ⟨id, some [svid], some alpnMux⟩⟩

private def afterPeak : MuxPool :=
  { MuxPool.new with
    peers := Function.update MuxPool.new.peers application ((List.range 4).map idle)
    nextId := 4 }

/-- The sessions have failed, their drivers have ended and evict their tunnels later. -/
private def peerRestarted : OutboundProxy.State where
  permits := 1023
  activeConnections := 1
  pool := afterPeak
  drivers := (List.range 4).map fun id => .exited application (idle id)
  conns := [.routing application sidecar.outbound.route]
  sessions := 4

private def answer : Handshake := ⟨some [svid], some alpnMux, false⟩

private def reachable (live : Tunnel → Bool) : World := ⟨live, answer⟩

private def started : Shared := ⟨readSvid, allowAny, .empty⟩

private theorem afterPeak_proper : peerRestarted.pool.Proper application where
  ids := by decide
  words := fun _ => Nat.two_pow_pos 64
  bound := by decide

private theorem reachable_admits (live : Tunnel → Bool) :
    (reachable live).Admits sidecar.outbound started peerRestarted.sessions := by
  have hparsed : extractIdentity readSvid .empty (answer.session 4) = .parsed svid workload := by
    decide +kernel
  exact ⟨workload, .inr ⟨svid, hparsed⟩, by decide⟩

private theorem afterPeak_queue :
    peerRestarted.pool.queue application = (List.range 4).map idle := by
  decide +kernel

theorem oneLive_not_failed :
    ∃ route, (∀ route', Loop.Returns
        ((reachable fun tunnel => tunnel.id = 3).next sidecar.outbound 0)
          (started, peerRestarted) route' ↔ route' = route) ∧ route ≠ .failed := by
  obtain ⟨route, hunique, hroute⟩ := route_not_failed_iff (i := 0) (s := peerRestarted)
    rfl rfl afterPeak_proper rfl (reachable_admits fun tunnel => tunnel.id = 3)
  refine ⟨route, hunique, hroute.mpr ?_⟩
  rintro ⟨-, hdead⟩
  rw [afterPeak_queue] at hdead
  have hlast := (hdead (idle 3) (by decide)).2
  revert hlast
  decide

theorem fourDead_failed :
    sidecar.outbound.muxEnabled = true ∧
      peerRestarted.conns[0]? = some (.routing application sidecar.outbound.route) ∧
      peerRestarted.pool.Proper application ∧
      peerRestarted.pool.creating application = none ∧
      (reachable fun _ => false).Admits sidecar.outbound started peerRestarted.sessions ∧
      Loop.Returns ((reachable fun _ => false).next sidecar.outbound 0)
        (started, peerRestarted) .failed := by
  refine ⟨rfl, rfl, afterPeak_proper, rfl, reachable_admits _, 30, ?_⟩
  decide +kernel

end Example

end Node

end Interlink
