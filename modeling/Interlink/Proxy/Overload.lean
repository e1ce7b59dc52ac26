import Interlink.Proxy.StreamCap

/-!
# Overloading a session

A run with one connection after another, each left open.  Every new connection finds a
tunnel, opens one or falls back on the least loaded, until the connections outnumber the
streams that sixteen sessions can carry.
-/

namespace Interlink.OutboundProxy

open Interlink.Foundation Node.Example

def allowAll : PolicyEngine :=
  PolicyEngine.new.setDefaultDecision .allow

def relayingOn (addr : SocketAddr) (tunnel : Tunnel) : Conn :=
  .routing addr (.relaying (.muxStream tunnel))

/-- Every connection but the last is relaying over a tunnel of the address. -/
structure Solo (node : Node) (addr : SocketAddr) (tunnels : List Tunnel) (conn : Conn)
    (s : Node.State) : Prop where
  parse : s.shared.parse = readSvid
  policy : s.shared.policy = allowAll
  conns : s.outbound.conns = tunnels.map (relayingOn addr) ++ [conn]
  permits : s.outbound.permits + tunnels.length + 1 = node.outbound.maxConnections
  lock : s.outbound.pool.creating addr = if conn.locked then some tunnels.length else none
  peers : ∀ tunnel ∈ tunnels, tunnel ∈ s.outbound.pool.peers addr
  held : ∀ tunnel, conn.tunnel = some tunnel → tunnel ∈ s.outbound.pool.peers addr
  drivers : ∀ driver ∈ s.outbound.drivers, ∃ other carrier, driver = .running other carrier

structure Settled (node : Node) (addr : SocketAddr) (tunnels : List Tunnel)
    (s : Node.State) : Prop where
  parse : s.shared.parse = readSvid
  policy : s.shared.policy = allowAll
  conns : s.outbound.conns = tunnels.map (relayingOn addr)
  permits : s.outbound.permits + tunnels.length = node.outbound.maxConnections
  lock : s.outbound.pool.creating addr = none
  peers : ∀ tunnel ∈ tunnels, tunnel ∈ s.outbound.pool.peers addr
  drivers : ∀ driver ∈ s.outbound.drivers, ∃ other carrier, driver = .running other carrier

section Runs

variable {node : Node} {addr : SocketAddr} {tunnels : List Tunnel} {tunnel : Tunnel}
  {conn next : Conn} {pc : Pc} {s s' : Node.State} {effect : Effect} {e : Node.Event}
  {out : List Observation}

/-! ## The scheduler lets the last connection run -/

theorem awaits_of_mem_relaying (h : conn ∈ tunnels.map (relayingOn addr)) :
    conn.awaits = true := by
  obtain ⟨tunnel, -, rfl⟩ := List.mem_map.mp h
  rfl

theorem Solo.getElem? (h : Solo node addr tunnels conn s) :
    s.outbound.conns[tunnels.length]? = some conn := by
  rw [h.conns, List.getElem?_append_right (by simp)]
  simp

theorem Solo.cooperative (h : Solo node addr tunnels conn s)
    (he : conn.awaits = false → e = .outbound (.run tunnels.length)) :
    Cooperative s.outbound e := by
  refine ⟨fun i old hi hold => ?_, fun d other carrier hd => ?_⟩
  · rw [h.conns] at hi
    rcases Tasks.getElem?_append_cases hi with ⟨rfl, rfl⟩ | hi
    · rw [List.length_map]
      exact he hold
    · cases (awaits_of_mem_relaying (List.mem_of_getElem? hi)).symm.trans hold
  · obtain ⟨_, _, heq⟩ := h.drivers _ (List.mem_of_getElem? hd)
    cases heq

theorem Settled.cooperative (h : Settled node addr tunnels s) : Cooperative s.outbound e := by
  refine ⟨fun i old hi hold => ?_, fun d other carrier hd => ?_⟩
  · rw [h.conns] at hi
    cases (awaits_of_mem_relaying (List.mem_of_getElem? hi)).symm.trans hold
  · obtain ⟨_, _, heq⟩ := h.drivers _ (List.mem_of_getElem? hd)
    cases heq

/-! ## A move of the last connection -/

theorem conns_set_last (h : Solo node addr tunnels conn s) :
    s.outbound.conns.set tunnels.length next = tunnels.map (relayingOn addr) ++ [next] := by
  rw [h.conns, List.set_append_right _ _ (by simp)]
  simp

theorem Solo.perform (h : Solo node addr tunnels (.routing addr pc) s)
    (hmove : Move node.outbound s.shared s.outbound tunnels.length addr pc effect next out)
    (honce : pc.UnlocksOnce) (hevict : ∀ id, effect ≠ .evict id)
    (hparse : s'.shared.parse = s.shared.parse) (hpolicy : s'.shared.policy = s.shared.policy)
    (hs' : s'.outbound = s.outbound.perform tunnels.length addr effect next) :
    Solo node addr tunnels next s' := by
  have hpeers : ∀ carrier, carrier ∈ s.outbound.pool.peers addr →
      carrier ∈ s'.outbound.pool.peers addr := by
    intro carrier hcarrier
    rw [hs']
    cases hmove.poolMove with
    | takeId => exact hcarrier
    | push => simp [State.perform, Effect.onPool, MuxPool.push, hcarrier]
    | evict => exact absurd rfl (hevict _)
    | steady hsame => simpa only [State.perform, hsame] using hcarrier
  refine ⟨hparse.trans h.parse, hpolicy.trans h.policy, ?_, ?_, ?_,
    fun carrier hcarrier => hpeers carrier (h.peers carrier hcarrier), fun carrier hcarrier => ?_,
    fun driver hdriver => ?_⟩
  · rw [hs']
    exact conns_set_last h
  · rw [hs']
    exact h.permits
  · have hlock := h.lock
    rw [hs']
    by_cases hlocks : effect = .lock
    · subst hlocks
      obtain ⟨-, last, rfl, hlast, -⟩ := hmove.of_lock
      simp [State.perform, Effect.onPool, MuxPool.lock, Conn.locked, hlast]
    · by_cases hunlocks : effect = .unlock
      · subst hunlocks
        obtain ⟨last, rfl, rfl⟩ := hmove.of_unlock
        simp [State.perform, Effect.onPool, MuxPool.unlock, Conn.locked,
          locked_of_unlocked honce]
      · simp only [State.perform, Effect.creating_onPool _ hlocks hunlocks,
          hmove.locked_eq hlocks hunlocks]
        exact hlock
  · cases hmove.poolMove with
    | takeId => cases hcarrier
    | push =>
        cases hcarrier
        simp [hs', State.perform, Effect.onPool, MuxPool.push]
    | evict => exact absurd rfl (hevict _)
    | steady _ _ htunnel =>
        rcases htunnel carrier hcarrier with hpc | hmem
        · exact hpeers carrier (h.held carrier hpc)
        · exact hpeers carrier hmem
  · rw [hs'] at hdriver
    cases effect with
    | spawn carrier =>
        rcases List.mem_append.mp hdriver with hold | hnew
        · exact h.drivers driver hold
        · exact ⟨addr, carrier, List.mem_singleton.mp hnew⟩
    | _ => exact h.drivers driver hdriver

/-! ## From `route` to a slot -/

/-- Runs in which tasks are not interrupted and yamux keeps its limit. -/
abbrev LeadsTo (node : Node) (P Q : Node.State → Prop) : Prop :=
  Step.Leads node.step (fun s e => Scheduled s.outbound e) P Q

abbrev At (node : Node) (addr : SocketAddr) (tunnels : List Tunnel) (pc : Pc) :
    Node.State → Prop :=
  Solo node addr tunnels (.routing addr pc)

theorem At.step (h : At node addr tunnels pc s) (event : Event) (honce : pc.UnlocksOnce)
    (hmove : Move node.outbound s.shared s.outbound tunnels.length addr pc effect next out)
    (hevict : ∀ id, effect ≠ .evict id)
    (hstep : OutboundProxy.step node.outbound s.shared s.outbound event =
      some (Shared.perform s.shared effect,
        s.outbound.perform tunnels.length addr effect next, out))
    (hscheduled : Scheduled s.outbound (.outbound event)) :
    ∃ s', Step.Reaches node.step (fun s e => Scheduled s.outbound e) s s' ∧
      Solo node addr tunnels next s' ∧
      s'.outbound.pool = effect.onPool tunnels.length addr s.outbound.pool := by
  have hnode : node.step s (.outbound event) = some ({ s with
      shared := Shared.perform s.shared effect
      outbound := s.outbound.perform tunnels.length addr effect next }, out.map .outbound) := by
    simp [Node.step, hstep]
  exact ⟨_, .single hnode hscheduled, h.perform hmove honce hevict rfl rfl rfl, rfl⟩

theorem At.run (h : At node addr tunnels pc s) (honce : pc.UnlocksOnce)
    (hevict : ∀ id, effect ≠ .evict id)
    (hadvance : advance node.outbound s.shared s.outbound tunnels.length addr pc =
      some (effect, next, out)) :
    ∃ s', Step.Reaches node.step (fun s e => Scheduled s.outbound e) s s' ∧
      Solo node addr tunnels next s' ∧
      s'.outbound.pool = effect.onPool tunnels.length addr s.outbound.pool :=
  h.step (.run tunnels.length) honce (advance_move hadvance) hevict
    (by simp [OutboundProxy.step, h.getElem?, runConn, performed, hadvance])
    ⟨h.cooperative fun _ => rfl, trivial⟩

theorem leadsTo_of_advance {pc' : Pc} (honce : pc.UnlocksOnce)
    (hadvance : ∀ s, At node addr tunnels pc s → ∃ effect out, (∀ id, effect ≠ .evict id) ∧
      advance node.outbound s.shared s.outbound tunnels.length addr pc =
        some (effect, .routing addr pc', out)) :
    LeadsTo node (At node addr tunnels pc) (At node addr tunnels pc') := by
  intro s hs
  obtain ⟨effect, out, hevict, hadvance⟩ := hadvance s hs
  obtain ⟨s', hreaches, hs', -⟩ := hs.run honce hevict hadvance
  exact ⟨s', hreaches, hs'⟩

theorem leadsTo_unlock (hpc : pc.unlocked = true) :
    LeadsTo node (At node addr tunnels (.unlocking pc)) (At node addr tunnels pc) :=
  leadsTo_of_advance hpc fun _ _ => ⟨.unlock, [], by simp, rfl⟩

theorem leadsTo_decided (subject : Subject) :
    LeadsTo node (At node addr tunnels (.evaluating subject))
      (At node addr tunnels (decided subject .allow)) := by
  have hscan : LeadsTo node (At node addr tunnels (.evaluating subject))
      (At node addr tunnels (.evaluatingGlobal subject)) :=
    leadsTo_of_advance trivial fun s hs => ⟨.none, [], by simp, by
      simp only [advance, hs.policy]
      rfl⟩
  refine hscan.trans (leadsTo_of_advance trivial fun s hs => ⟨.none,
    [.evaluated tunnels.length node.outbound.localId subject.peer .allow,
      .metric (.policy .allow)], by simp, ?_⟩)
  simp only [advance, conclude, hs.policy]
  rfl

theorem leadsTo_opening (origin : Origin) :
    LeadsTo node (At node addr tunnels (.reserving origin tunnel))
      (At node addr tunnels (.opening origin tunnel)) :=
  leadsTo_of_advance trivial fun _ _ => ⟨.reserve tunnel.id, [], by simp, rfl⟩

theorem leadsTo_opening_of_picked (attempts : Nat) :
    LeadsTo node (At node addr tunnels (.evaluating (.tunnel attempts tunnel)))
      (At node addr tunnels (.opening (.pooled attempts) tunnel)) :=
  (leadsTo_decided (.tunnel attempts tunnel)).trans (leadsTo_opening _)

def Opening (node : Node) (addr : SocketAddr) (tunnels : List Tunnel) (s : Node.State) : Prop :=
  ∃ origin tunnel, At node addr tunnels (.opening origin tunnel) s

theorem leadsTo_Opening_of_picked (attempts : Nat) :
    LeadsTo node (At node addr tunnels (.evaluating (.tunnel attempts tunnel)))
      (Opening node addr tunnels) := by
  intro s hs
  obtain ⟨s', hreaches, hopening⟩ := leadsTo_opening_of_picked attempts s hs
  exact ⟨s', hreaches, _, _, hopening⟩

theorem session_identity (number : Nat) :
    (TlsSession.mk number (some [svid]) (some alpnMux)).identity readSvid = .ok workload := by
  change spiffeIdFromCertDer readSvid svid = _
  decide

def peerSession (number : Nat) : TlsSession :=
  ⟨number, some [svid], some alpnMux⟩

theorem leadsTo_handshaken :
    LeadsTo node (At node addr tunnels (.connecting true))
      (fun s => ∃ number, At node addr tunnels (.identifying true (peerSession number)) s) := by
  intro s hs
  have hreaction : handshaken s.outbound tunnels.length addr muxHandshake (.connecting true) =
      some (.session, .routing addr (.identifying true (peerSession s.outbound.sessions)),
        [.handshaken tunnels.length addr (some (peerSession s.outbound.sessions)),
          .metric (.handshakeKind false)]) := rfl
  obtain ⟨s', hreaches, hs', -⟩ := hs.step (.handshaken tunnels.length muxHandshake)
    trivial (handshaken_move hreaction) (by simp)
    (by simp [OutboundProxy.step, hs.getElem?, respond, performed, hreaction])
    ⟨hs.cooperative (fun h => nomatch h), trivial⟩
  exact ⟨s', hreaches, _, hs'⟩

theorem leadsTo_cached (leafDer : Der) (tls : TlsStream) :
    LeadsTo node (At node addr tunnels (.caching true leafDer tls))
      (At node addr tunnels (.evaluating (.stream true tls))) :=
  leadsTo_of_advance trivial fun _ _ =>
    ⟨.cache leafDer tls.peerIdentity, [.metric .handshake], by simp, rfl⟩

theorem leadsTo_identified (number : Nat) :
    LeadsTo node (At node addr tunnels (.identifying true (peerSession number)))
      (fun s => ∃ id, At node addr tunnels
        (.evaluating (.stream true ⟨peerSession number, id⟩)) s) := by
  intro s hs
  cases hfound : extractIdentity s.shared.parse s.shared.identityCache (peerSession number) with
  | cached id =>
      have hadvance : advance node.outbound s.shared s.outbound tunnels.length addr
          (.identifying true (peerSession number)) =
            some (.none, .routing addr (.evaluating (.stream true ⟨peerSession number, id⟩)),
              [.metric .handshake]) := by
        simp only [advance, hfound]
      obtain ⟨s', hreaches, hs', -⟩ := hs.run trivial (by simp) hadvance
      exact ⟨s', hreaches, id, hs'⟩
  | parsed leafDer id =>
      have hadvance : advance node.outbound s.shared s.outbound tunnels.length addr
          (.identifying true (peerSession number)) =
            some (.none, .routing addr (.caching true leafDer ⟨peerSession number, id⟩), []) := by
        simp only [advance, hfound]
      obtain ⟨m, hreaches, hm, -⟩ := hs.run trivial (by simp) hadvance
      obtain ⟨s', hreaches', hs'⟩ := leadsTo_cached leafDer _ m hm
      exact ⟨s', hreaches.trans hreaches', id, hs'⟩
  | failed error =>
      rw [hs.parse] at hfound
      cases (identity_of_failed hfound).symm.trans (session_identity number)

theorem leadsTo_registered (tls : TlsStream) :
    LeadsTo node (At node addr tunnels (.numbering true tls))
      (fun s => ∃ tunnel, At node addr tunnels (.reserving (.fresh true) tunnel) s) := by
  intro s hs
  obtain ⟨s₁, hreaches₁, hs₁, -⟩ := hs.run trivial (by simp) rfl
  have hpush : LeadsTo node
      (At node addr tunnels (.pushing true ⟨s.outbound.pool.nextId, tls.peerIdentity, tls.session⟩))
      (At node addr tunnels
        (.spawning true ⟨s.outbound.pool.nextId, tls.peerIdentity, tls.session⟩)) :=
    leadsTo_of_advance trivial fun _ _ => ⟨.push _, [.registered addr _], by simp, rfl⟩
  have hspawn : LeadsTo node
      (At node addr tunnels
        (.spawning true ⟨s.outbound.pool.nextId, tls.peerIdentity, tls.session⟩))
      (At node addr tunnels
        (.reserving (.fresh true) ⟨s.outbound.pool.nextId, tls.peerIdentity, tls.session⟩)) :=
    leadsTo_of_advance trivial fun _ _ => ⟨.spawn _, [.metric .muxTunnelOpened], by simp, rfl⟩
  obtain ⟨s', hreaches', hs'⟩ := hpush.trans hspawn s₁ hs₁
  exact ⟨s', hreaches₁.trans hreaches', _, hs'⟩

theorem leadsTo_Opening_of_reserving (origin : Origin) :
    LeadsTo node (At node addr tunnels (.reserving origin tunnel))
      (Opening node addr tunnels) := by
  intro s hs
  obtain ⟨s', hreaches, hs'⟩ := leadsTo_opening origin s hs
  exact ⟨s', hreaches, origin, tunnel, hs'⟩

theorem leadsTo_Opening_of_dialing :
    LeadsTo node (At node addr tunnels (.dialing true)) (Opening node addr tunnels) := by
  have hdial : LeadsTo node (At node addr tunnels (.dialing true))
      (At node addr tunnels (.connecting true)) :=
    leadsTo_of_advance trivial fun _ _ =>
      ⟨.none, [.dialed tunnels.length addr], by simp, rfl⟩
  have hregister : ∀ number id, LeadsTo node
      (At node addr tunnels (.evaluating (.stream true ⟨peerSession number, id⟩)))
      (Opening node addr tunnels) := fun number id =>
    (leadsTo_decided (.stream true ⟨peerSession number, id⟩)).trans
      ((leadsTo_registered ⟨peerSession number, id⟩).trans
        (.exists fun tunnel => leadsTo_Opening_of_reserving (.fresh true)))
  exact hdial.trans (leadsTo_handshaken.trans (.exists fun number =>
    (leadsTo_identified number).trans (.exists (hregister number))))

theorem exists_Opening_of_full {attempts : Nat}
    (hs : At node addr tunnels (.checkingGrowth attempts) s)
    (hfull : s.outbound.pool.canGrow addr = false) :
    ∃ s', Step.Reaches node.step (fun s e => Scheduled s.outbound e) s s' ∧
      Opening node addr tunnels s' := by
  have hpeers : s.outbound.pool.peers addr ≠ [] := by
    intro hnil
    simp [MuxPool.canGrow, hnil, maxTunnelsPerPeer] at hfull
  have hcheck : advance node.outbound s.shared s.outbound tunnels.length addr
      (.checkingGrowth attempts) =
        some (.none, .routing addr (.unlocking (.fallingBack attempts)), []) := by
    simp [advance, hfull]
  obtain ⟨s₁, hreaches₁, hs₁, hpool₁⟩ := hs.run trivial (by simp) hcheck
  obtain ⟨s₂, hreaches₂, hs₂, hpool₂⟩ := At.run hs₁ rfl (by simp) rfl
  have hsame : s₂.outbound.pool.peers = s.outbound.pool.peers := by
    rw [hpool₂, hpool₁]
    rfl
  cases hpick : s₂.outbound.pool.pickAny addr with
  | none =>
      rw [MuxPool.pickAny_eq_none, hsame] at hpick
      exact absurd hpick hpeers
  | some tunnel =>
      have hfall : advance node.outbound s₂.shared s₂.outbound tunnels.length addr
          (.fallingBack attempts) =
            some (.none, .routing addr (.evaluating (.tunnel attempts tunnel)),
              [.picked tunnels.length addr tunnel]) := by
        simp [advance, hpick]
      obtain ⟨s₃, hreaches₃, hs₃, -⟩ := At.run hs₂ trivial (by simp) hfall
      obtain ⟨s', hreaches', hs'⟩ := leadsTo_Opening_of_picked attempts s₃ hs₃
      exact ⟨s', hreaches₁.trans (hreaches₂.trans (hreaches₃.trans hreaches')), hs'⟩

theorem leadsTo_Opening_of_checkingGrowth (attempts : Nat) :
    LeadsTo node (At node addr tunnels (.checkingGrowth attempts))
      (Opening node addr tunnels) := by
  intro s hs
  cases hgrow : s.outbound.pool.canGrow addr with
  | false => exact exists_Opening_of_full hs hgrow
  | true =>
      have hcheck : advance node.outbound s.shared s.outbound tunnels.length addr
          (.checkingGrowth attempts) = some (.none, .routing addr (.dialing true), []) := by
        simp [advance, hgrow]
      obtain ⟨m, hreaches, hm, -⟩ := hs.run trivial (by simp) hcheck
      obtain ⟨s', hreaches', hs'⟩ := leadsTo_Opening_of_dialing m hm
      exact ⟨s', hreaches.trans hreaches', hs'⟩

theorem leadsTo_Opening_of_rechecking (attempts : Nat) :
    LeadsTo node (At node addr tunnels (.rechecking attempts)) (Opening node addr tunnels) := by
  intro s hs
  cases hpick : s.outbound.pool.pickUnderCap addr with
  | none =>
      have hrecheck : advance node.outbound s.shared s.outbound tunnels.length addr
          (.rechecking attempts) = some (.none, .routing addr (.checkingGrowth attempts), []) := by
        simp [advance, hpick]
      obtain ⟨m, hreaches, hm, -⟩ := hs.run trivial (by simp) hrecheck
      obtain ⟨s', hreaches', hs'⟩ := leadsTo_Opening_of_checkingGrowth attempts m hm
      exact ⟨s', hreaches.trans hreaches', hs'⟩
  | some tunnel =>
      have hrecheck : advance node.outbound s.shared s.outbound tunnels.length addr
          (.rechecking attempts) =
            some (.none, .routing addr (.unlocking (.evaluating (.tunnel attempts tunnel))),
              [.picked tunnels.length addr tunnel]) := by
        simp [advance, hpick]
      obtain ⟨m, hreaches, hm, -⟩ := hs.run trivial (by simp) hrecheck
      obtain ⟨s', hreaches', hs'⟩ :=
        ((leadsTo_unlock rfl).trans (leadsTo_Opening_of_picked attempts)) m hm
      exact ⟨s', hreaches.trans hreaches', hs'⟩

theorem leadsTo_Opening_of_locking (attempts : Nat) :
    LeadsTo node (At node addr tunnels (.locking attempts)) (Opening node addr tunnels) := by
  have hlock : LeadsTo node (At node addr tunnels (.locking attempts))
      (At node addr tunnels (.rechecking attempts)) :=
    leadsTo_of_advance trivial fun s hs => ⟨.lock, [], by simp, by
      have hfree : s.outbound.pool.creating addr = none := hs.lock
      simp [advance, hfree]⟩
  exact hlock.trans (leadsTo_Opening_of_rechecking attempts)

theorem leadsTo_Opening_of_picking (attempts : Nat) :
    LeadsTo node (At node addr tunnels (.picking (attempts + 1)))
      (Opening node addr tunnels) := by
  intro s hs
  cases hpick : s.outbound.pool.pickUnderCap addr with
  | none =>
      have hpicking : advance node.outbound s.shared s.outbound tunnels.length addr
          (.picking (attempts + 1)) = some (.none, .routing addr (.locking attempts), []) := by
        simp [advance, hpick]
      obtain ⟨m, hreaches, hm, -⟩ := hs.run trivial (by simp) hpicking
      obtain ⟨s', hreaches', hs'⟩ := leadsTo_Opening_of_locking attempts m hm
      exact ⟨s', hreaches.trans hreaches', hs'⟩
  | some tunnel =>
      have hpicking : advance node.outbound s.shared s.outbound tunnels.length addr
          (.picking (attempts + 1)) =
            some (.none, .routing addr (.evaluating (.tunnel attempts tunnel)),
              [.picked tunnels.length addr tunnel]) := by
        simp [advance, hpick]
      obtain ⟨m, hreaches, hm, -⟩ := hs.run trivial (by simp) hpicking
      obtain ⟨s', hreaches', hs'⟩ := leadsTo_Opening_of_picked attempts m hm
      exact ⟨s', hreaches.trans hreaches', hs'⟩

/-! ## Accepting a connection -/

theorem leadsTo_accepted (hport : addr.port ≠ node.outbound.listenPort)
    (hpermit : tunnels.length < node.outbound.maxConnections) :
    LeadsTo node (Settled node addr tunnels)
      (Solo node addr tunnels (.accepted (.socket addr))) := by
  intro s hs
  have hpermits := hs.permits
  have hpos : 0 < s.outbound.permits := by omega
  have hselect : node.outbound.selectUpstream (some addr) = some (.socket addr) := by
    simp [selectUpstream, hport]
  have hstep : node.step s (.outbound (.accept (some addr))) = some ({ s with
      outbound := { s.outbound with
        permits := s.outbound.permits - 1
        conns := s.outbound.conns ++ [.accepted (.socket addr)] } }, []) := by
    simp [Node.step, OutboundProxy.step, accept, hselect, hpos]
  refine ⟨_, .single hstep ⟨hs.cooperative, trivial⟩, hs.parse, hs.policy, ?_, ?_, hs.lock,
    hs.peers, fun tunnel htunnel => ?_, hs.drivers⟩
  · simp [hs.conns]
  · simp only
    omega
  · cases htunnel

theorem Solo.run (h : Solo node addr tunnels conn s) (hconn : conn.locked = false)
    (hnext : next.locked = false ∧ next.tunnel = none) {o : State}
    (hrun : runConn node.outbound s.shared s.outbound tunnels.length conn =
      some (s.shared, o, out))
    (hconns : o.conns = s.outbound.conns.set tunnels.length next)
    (hpermits : o.permits = s.outbound.permits) (hpool : o.pool = s.outbound.pool)
    (hdrivers : o.drivers = s.outbound.drivers) :
    ∃ s', Step.Reaches node.step (fun s e => Scheduled s.outbound e) s s' ∧
      Solo node addr tunnels next s' := by
  have hstep : node.step s (.outbound (.run tunnels.length)) =
      some ({ s with outbound := o }, out.map .outbound) := by
    simp [Node.step, OutboundProxy.step, h.getElem?, hrun]
  refine ⟨_, .single hstep ⟨h.cooperative fun _ => rfl, trivial⟩, h.parse, h.policy, ?_, ?_, ?_,
    ?_, fun tunnel htunnel => ?_, ?_⟩
  · rw [hconns, conns_set_last h]
  · rw [hpermits, h.permits]
  · rw [hpool, h.lock, hconn, hnext.1]
  · rw [hpool]
    exact h.peers
  · cases hnext.2.symm.trans htunnel
  · rw [hdrivers]
    exact h.drivers

theorem leadsTo_picking (hmux : node.outbound.muxEnabled = true) :
    LeadsTo node (Solo node addr tunnels (.accepted (.socket addr)))
      (At node addr tunnels (.picking 4)) := by
  have hstart : LeadsTo node (Solo node addr tunnels (.accepted (.socket addr)))
      (Solo node addr tunnels (.spawned (.socket addr))) :=
    fun s hs => hs.run rfl ⟨rfl, rfl⟩ rfl rfl rfl rfl rfl
  have hbegin : LeadsTo node (Solo node addr tunnels (.spawned (.socket addr)))
      (Solo node addr tunnels (.resolving (.socket addr))) :=
    fun s hs => hs.run rfl ⟨rfl, rfl⟩ rfl rfl rfl rfl rfl
  have hroute : node.outbound.route = .picking 4 := by simp [route, hmux]
  have henter : LeadsTo node (Solo node addr tunnels (.resolving (.socket addr)))
      (At node addr tunnels (.picking 4)) := fun s hs =>
    hs.run rfl ⟨rfl, rfl⟩ (o := s.outbound.goto tunnels.length (.routing addr (.picking 4)))
      (by rw [← hroute]; rfl) rfl rfl rfl rfl
  exact hstart.trans (hbegin.trans henter)

/-! ## One more connection -/

theorem Solo.settled (h : Solo node addr tunnels (relayingOn addr tunnel) s) :
    Settled node addr (tunnels ++ [tunnel]) s where
  parse := h.parse
  policy := h.policy
  conns := by simp [h.conns]
  permits := by
    have := h.permits
    simp only [List.length_append, List.length_singleton]
    omega
  lock := h.lock
  peers := Tasks.forall_mem_append h.peers (h.held tunnel rfl)
  drivers := h.drivers

def Overloaded (s : Node.State) : Prop :=
  ∃ id, yamuxMaxStreams < s.outbound.conns.countP (Conn.reserves id)

/-- Either yamux has a stream left for the connection, or its slot is one too many. -/
theorem exists_settled_of_opening {origin : Origin}
    (hs : At node addr tunnels (.opening origin tunnel) s) (hover : ¬ Overloaded s) :
    ∃ s', Step.Reaches node.step (fun s e => Scheduled s.outbound e) s s' ∧
      Settled node addr (tunnels ++ [tunnel]) s' := by
  have hstreams : (s.outbound.conns.countP fun conn => conn.stream = some tunnel.id) <
      yamuxMaxStreams := by
    have hslots : s.outbound.conns.countP (Conn.reserves tunnel.id) ≤ yamuxMaxStreams :=
      Nat.le_of_not_lt fun hlt => hover ⟨tunnel.id, hlt⟩
    refine (Tasks.countP_lt_countP hs.getElem? (fun conn hmem hconn => ?_) rfl ?_).trans_le hslots
    · rw [hs.conns, List.mem_append, List.mem_singleton] at hmem
      rcases hmem with hmem | rfl
      · obtain ⟨carrier, -, rfl⟩ := List.mem_map.mp hmem
        exact hconn
      · cases hconn
    · simp [Conn.reserves, Pc.reservation]
  have hscheduled : Scheduled s.outbound (.outbound (.opened tunnels.length true)) := by
    refine ⟨hs.cooperative fun h => ?_, fun other _ carrier hconn => ?_⟩
    · cases h
    cases hs.getElem?.symm.trans hconn
    exact hstreams
  have hreturn : LeadsTo node (At node addr tunnels (.returning (.muxStream tunnel)))
      (Settled node addr (tunnels ++ [tunnel])) := by
    have hrelay : LeadsTo node (At node addr tunnels (.returning (.muxStream tunnel)))
        (At node addr tunnels (.relaying (.muxStream tunnel))) :=
      leadsTo_of_advance trivial fun _ _ =>
        ⟨.none, [.routed tunnels.length addr (.muxStream tunnel), .metric .muxStream], by simp, rfl⟩
    intro m hm
    obtain ⟨s', hreaches, hs'⟩ := hrelay m hm
    exact ⟨s', hreaches, hs'.settled⟩
  obtain ⟨next, hreaction, hnext⟩ : ∃ next : Pc,
      opened tunnels.length addr true (.opening origin tunnel) =
        some (.none, .routing addr next, []) ∧
      LeadsTo node (At node addr tunnels next) (Settled node addr (tunnels ++ [tunnel])) := by
    cases origin with
    | pooled attempts => exact ⟨_, rfl, hreturn⟩
    | fresh locked =>
        cases locked with
        | false => exact ⟨_, rfl, hreturn⟩
        | true => exact ⟨_, rfl, (leadsTo_unlock rfl).trans hreturn⟩
  obtain ⟨m, hreaches, hm, -⟩ := hs.step (.opened tunnels.length true) trivial
    (opened_move hreaction) (by simp)
    (by simp [OutboundProxy.step, hs.getElem?, respond, performed, hreaction]) hscheduled
  obtain ⟨s', hreaches', hs'⟩ := hnext m hm
  exact ⟨s', hreaches.trans hreaches', hs'⟩

theorem Solo.length (h : Solo node addr tunnels conn s) :
    s.outbound.conns.length = tunnels.length + 1 := by
  simp [h.conns]

/-- Connections can be left open one after another until a session is overloaded. -/
theorem exists_settled (hmux : node.outbound.muxEnabled = true)
    (hport : addr.port ≠ node.outbound.listenPort) {n limit : Nat} (hn : n ≤ limit)
    (hlimit : limit ≤ node.outbound.maxConnections) :
    ∃ s, Step.Reaches node.step (fun s e => Scheduled s.outbound e)
        (node.initial readSvid allowAll) s ∧ s.outbound.conns.length ≤ limit ∧
      (Overloaded s ∨ ∃ tunnels, tunnels.length = n ∧ Settled node addr tunnels s) := by
  induction n with
  | zero =>
      refine ⟨_, .refl _, Nat.zero_le _, .inr ⟨[], rfl, ?_⟩⟩
      exact ⟨rfl, rfl, rfl, rfl, rfl, by simp, by simp [Node.initial, OutboundProxy.initial]⟩
  | succ n ih =>
      obtain ⟨s, hreaches, hlength, hover | ⟨tunnels, rfl, hs⟩⟩ := ih (by omega)
      · exact ⟨s, hreaches, hlength, .inl hover⟩
      · obtain ⟨m, hreaches', origin, tunnel, hm⟩ := ((leadsTo_accepted hport (by omega)).trans
          ((leadsTo_picking hmux).trans (leadsTo_Opening_of_picking 3))) s hs
        by_cases hover : Overloaded m
        · exact ⟨m, hreaches.trans hreaches', by rw [hm.length]; exact hn, .inl hover⟩
        · obtain ⟨s', hreaches'', hs'⟩ := exists_settled_of_opening hm hover
          refine ⟨s', hreaches.trans (hreaches'.trans hreaches''), ?_, .inr ⟨_, ?_, hs'⟩⟩
          · rw [hs'.conns, List.length_map, List.length_append]
            exact hn
          · simp

theorem Settled.overloaded (h : Settled node addr tunnels s) (hgrowth : Growth s.outbound)
    (hmany : maxTunnelsPerPeer * yamuxMaxStreams < tunnels.length) : Overloaded s := by
  set ids := (s.outbound.pool.peers addr).map Tunnel.id with hids
  have hkeys : ∀ conn ∈ s.outbound.conns, ∃ id ∈ ids, conn.reservation = some id := by
    intro conn hmem
    rw [h.conns] at hmem
    obtain ⟨tunnel, htunnel, rfl⟩ := List.mem_map.mp hmem
    exact ⟨tunnel.id, List.mem_map_of_mem (h.peers tunnel htunnel), rfl⟩
  have hlength : ids.length * yamuxMaxStreams < s.outbound.conns.length := by
    rw [h.conns, List.length_map, List.length_map]
    exact (Nat.mul_le_mul_right _ (hgrowth.bound addr)).trans_lt hmany
  obtain ⟨id, -, hid⟩ := Tasks.exists_lt_countP hkeys hlength
  exact ⟨id, hid⟩

end Runs

end Interlink.OutboundProxy

namespace Interlink.Node

open Interlink.Foundation OutboundProxy Example

theorem exists_live_gt (node : Node) (hmux : node.outbound.muxEnabled = true)
    (hmax : maxTunnelsPerPeer * yamuxMaxStreams < node.outbound.maxConnections) :
    ∃ events s trace,
      node.step.exec (node.initial readSvid allowAll) events = some (s, trace) ∧
      node.step.Always (fun s e => Scheduled s.outbound e) (node.initial readSvid allowAll)
        events ∧
      ∃ id, yamuxMaxStreams < s.outbound.pool.live id := by
  have hport : (SocketAddr.mk (.v4 0) (node.outbound.listenPort + 1)).port ≠
      node.outbound.listenPort := by simp
  obtain ⟨s, ⟨events, trace, hrun, hscheduled⟩, hlength, hover⟩ :=
    exists_settled hmux hport (le_refl (maxTunnelsPerPeer * yamuxMaxStreams + 1)) hmax
  have hpooled : Pooled (outboundTrace trace) s.outbound :=
    outbound_invariant (.initial node.outbound) (fun h hchange => h.step hmux hchange.view) hrun
  have hoverloaded : Overloaded s := by
    rcases hover with hover | ⟨tunnels, htunnels, hs⟩
    · exact hover
    · exact hs.overloaded hpooled.growth (by omega)
  obtain ⟨id, hid⟩ := hoverloaded
  refine ⟨events, s, trace, hrun, hscheduled, id, ?_⟩
  have hcount : s.outbound.conns.countP (Conn.reserves id) < wordSize :=
    (List.countP_le_length.trans hlength).trans_lt (by decide)
  rw [hpooled.loads id, Nat.mod_eq_of_lt hcount]
  exact hid

/--
The proxy of a configuration keeps every session within its streams if and only if the
configuration allows no more connections than sixteen sessions have streams.
-/
theorem live_le_iff_maxConnections {config : Config} (hmux : config.mux = true)
    {parseAddr : Str → Option SocketAddr} {port : UInt16} {hasDiscovery : Bool} {node : Node}
    (hnew : newWithDiscovery parseAddr config.toProxyConfig port hasDiscovery =
      some node.outbound) :
    (∀ parse policy events s trace,
      node.step.exec (node.initial parse policy) events = some (s, trace) →
      node.step.Always (fun s e => Scheduled s.outbound e) (node.initial parse policy) events →
      ∀ id, s.outbound.pool.live id ≤ yamuxMaxStreams) ↔
    config.maxConnections ≤ maxTunnelsPerPeer * yamuxMaxStreams := by
  obtain ⟨hconnections, hmuxEnabled⟩ := of_newWithDiscovery hnew
  rw [← hconnections]
  rw [← hmuxEnabled] at hmux
  constructor
  · intro hsafe
    refine Nat.le_of_not_lt fun hmany => ?_
    obtain ⟨events, s, trace, hrun, hscheduled, id, hid⟩ := exists_live_gt node hmux hmany
    exact absurd (hsafe _ _ events s trace hrun hscheduled id) (Nat.not_le_of_lt hid)
  · intro hmax parse policy events s trace hrun hscheduled id
    exact live_le_of_maxConnections hmux hmax hscheduled hrun id

section Example

private def limited (maxConnections : Nat) : Config :=
  { Config.default with maxConnections := maxConnections }

private def limitedSidecar (maxConnections : Nat) : Node where
  outbound := ⟨maxConnections, none, true, 4140, true,
    SpiffeId.new "cluster.local".toList "default".toList "proxy".toList⟩
  inbound := sidecar.inbound

theorem limited_overloaded :
    (limited 10000).validate = .ok () ∧ (limited 10000).mux = true ∧
      newWithDiscovery (fun _ => none) (limited 10000).toProxyConfig 4140 true =
        some (limitedSidecar 10000).outbound ∧
      ∃ events s trace,
        (limitedSidecar 10000).step.exec ((limitedSidecar 10000).initial readSvid allowAll)
          events = some (s, trace) ∧
        (limitedSidecar 10000).step.Always (fun s e => Scheduled s.outbound e)
          ((limitedSidecar 10000).initial readSvid allowAll) events ∧
        ∃ id, 512 < s.outbound.pool.live id :=
  ⟨rfl, rfl, rfl, exists_live_gt (limitedSidecar 10000) rfl (by decide)⟩

theorem limited_live_le :
    (limited 8192).validate = .ok () ∧
      ∀ parse policy events s trace,
        (limitedSidecar 8192).step.exec ((limitedSidecar 8192).initial parse policy) events =
          some (s, trace) →
        (limitedSidecar 8192).step.Always (fun s e => Scheduled s.outbound e)
          ((limitedSidecar 8192).initial parse policy) events →
        ∀ id, s.outbound.pool.live id ≤ 512 := by
  have hnew : newWithDiscovery (fun _ => none) (limited 8192).toProxyConfig 4140 true =
      some (limitedSidecar 8192).outbound := rfl
  exact ⟨rfl, (live_le_iff_maxConnections rfl hnew).mpr (by decide)⟩

end Example

end Interlink.Node
