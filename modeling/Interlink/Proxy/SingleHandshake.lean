import Interlink.Proxy.Loads

/-!
# One handshake for many connections

While nothing goes wrong on an address and it never has more connections at once
than one tunnel takes, the first connection opens a tunnel and every other one uses it.
-/

namespace Interlink.OutboundProxy

open Interlink.Foundation

/--
Nothing has gone wrong on the address: the peer has an identity and negotiates
multiplexing, streams open, no tunnel dies and the policy allows.
-/
def Observation.Smooth (parse : X509Parser) (addr : SocketAddr) (trace : List Observation) :
    Observation → Prop
  | .handshaken _ other session => other = addr →
      ∃ tls ∈ session, tls.negotiatedMux = true ∧ (tls.identity parse).isOk = true
  | .openFailed _ other _ | .driverExited other _ => other ≠ addr
  | .evaluated i _ _ decision => .routeCalled i addr ∈ trace → decision = .allow
  | _ => True

instance (parse : X509Parser) (addr : SocketAddr) (trace : List Observation) :
    DecidablePred (Observation.Smooth parse addr trace) := fun o => by
  cases o <;> unfold Observation.Smooth <;> infer_instance

def Smooth (parse : X509Parser) (addr : SocketAddr) (trace : List Observation) : Prop :=
  ∀ o ∈ trace, o.Smooth parse addr trace

def dials (addr : SocketAddr) (trace : List Observation) : Nat :=
  trace.countP fun
    | .dialed _ other => other = addr
    | _ => false

/-! ## Where a connection can stand -/

def Pc.OnTrack (parse : X509Parser) : Pc → Prop
  | .picking attempts => 0 < attempts
  | .fallingBack _ | .unreserving _ _ | .evicting _ _ => False
  | .identifying _ session =>
      session.negotiatedMux = true ∧ ∃ peer, session.identity parse = .ok peer
  | .caching _ _ tls | .evaluating (.stream _ tls) | .evaluatingGlobal (.stream _ tls) =>
      tls.session.negotiatedMux = true
  | .unlocking next => next.OnTrack parse
  | .returning route | .relaying route | .dropping route => ∃ tunnel, route = .muxStream tunnel
  | _ => True

/-- The connection has found no tunnel and may open one. -/
def Pc.expanding : Pc → Bool
  | .checkingGrowth _ => true
  | pc => pc.growing

def Pc.establishing : Pc → Bool
  | .dialing _ => false
  | pc => pc.growing

def Conn.establishes (addr : SocketAddr) : Conn → Bool
  | .routing other pc => other = addr && pc.establishing
  | _ => false

section Moves

variable {parse : X509Parser} {proxy : OutboundProxy} {shared : Shared} {s : State} {i : Nat}
  {addr : SocketAddr} {pc next : Pc} {effect : Effect} {conn : Conn}
  {trace out : List Observation}

theorem Smooth.handshakes (h : Smooth parse addr trace) {session : Option TlsSession}
    (hmem : .handshaken i addr session ∈ trace) :
    ∃ tls peer, session = some tls ∧ tls.negotiatedMux = true ∧
      tls.identity parse = .ok peer := by
  obtain ⟨tls, htls, hmux, hok⟩ := h _ hmem rfl
  cases hidentity : tls.identity parse with
  | ok peer => exact ⟨tls, peer, htls, hmux, hidentity⟩
  | error error =>
      rw [hidentity] at hok
      cases hok

theorem Smooth.opens (h : Smooth parse addr trace) (i : Nat) (tunnel : Tunnel) :
    .openFailed i addr tunnel ∉ trace :=
  fun hmem => h _ hmem rfl

theorem Smooth.tunnels (h : Smooth parse addr trace) (tunnel : Tunnel) :
    .driverExited addr tunnel ∉ trace :=
  fun hmem => h _ hmem rfl

theorem Smooth.policy (h : Smooth parse addr trace) {source destination : SpiffeId}
    {decision : Decision} (hcalled : .routeCalled i addr ∈ trace)
    (hmem : .evaluated i source destination decision ∈ trace) : decision = .allow :=
  h _ hmem hcalled

theorem Observation.Smooth.of_append {o : Observation}
    (h : o.Smooth parse addr (trace ++ out)) : o.Smooth parse addr trace := by
  cases o with
  | evaluated i source destination decision =>
      exact fun hcalled => h (List.mem_append_left out hcalled)
  | _ => exact h

theorem Smooth.of_append (h : Smooth parse addr (trace ++ out)) : Smooth parse addr trace :=
  fun o hmem => (h o (List.mem_append_left out hmem)).of_append

theorem expanding_of_unlocked (hpc : pc.unlocked = true) : pc.expanding = false := by
  cases pc with
  | checkingGrowth attempts => cases hpc
  | _ => exact growing_of_unlocked hpc

theorem expanding_leave (locked : Bool) (hpc : pc.unlocked = true) :
    (leave locked pc).expanding = false := by
  cases locked with
  | false => exact expanding_of_unlocked hpc
  | true => rfl

theorem establishing_leave (locked : Bool) (hpc : pc.unlocked = true) :
    (leave locked pc).establishing = false := by
  cases locked with
  | false =>
      cases pc with
      | dialing locked => rfl
      | _ => exact growing_of_unlocked hpc
  | true => rfl

theorem onTrack_leave (locked : Bool) : (leave locked pc).OnTrack parse ↔ pc.OnTrack parse := by
  cases locked <;> rfl

theorem expanding_of_decided {subject : Subject} {decision : Decision}
    (h : (decided subject decision).expanding = true) :
    ∃ locked tls, subject = .stream locked tls := by
  cases subject with
  | tunnel attempts tunnel => cases decision <;> cases h
  | stream locked tls => exact ⟨locked, tls, rfl⟩

theorem onTrack_decided {subject : Subject} (hpc : (Pc.evaluating subject).OnTrack parse) :
    (decided subject .allow).OnTrack parse := by
  cases subject with
  | tunnel attempts tunnel => trivial
  | stream locked tls =>
      have hmux : tls.session.negotiatedMux = true := hpc
      simp only [decided, hmux, if_true]
      trivial

theorem onTrack_evaluatingGlobal {subject : Subject} :
    (Pc.evaluatingGlobal subject).OnTrack parse ↔ (Pc.evaluating subject).OnTrack parse := by
  cases subject <;> rfl

/-- A connection turns to growth only when it holds the lock and no tunnel has a slot. -/
theorem Move.expanding (h : Move proxy shared s i addr pc effect conn out)
    (honce : pc.UnlocksOnce) (hconn : conn = .routing addr next)
    (hnext : next.expanding = true) :
    pc.expanding = true ∨ (pc.reservation = none ∧ s.pool.pickUnderCap addr = none) := by
  cases h <;> cases hconn
  case recheckNone hpick => exact .inr ⟨rfl, hpick⟩
  case unlock =>
    exact absurd ((expanding_of_unlocked honce).symm.trans hnext) Bool.false_ne_true
  case handshakeError | identifyError | openFresh | evictFresh =>
    exact absurd ((expanding_leave _ rfl).symm.trans hnext) Bool.false_ne_true
  case decideNamespace | decideGlobal =>
    obtain ⟨locked, tls, rfl⟩ := expanding_of_decided hnext
    exact .inl rfl
  case scan subject _ => exact .inl (by cases subject <;> exact hnext)
  all_goals first
    | exact .inl rfl
    | cases hnext

theorem Move.onTrack (h : Move proxy shared s i addr pc effect conn out)
    (hconn : conn = .routing addr next) (hparse : shared.parse = parse)
    (hsmooth : Smooth parse addr (trace ++ out)) (hcalled : .routeCalled i addr ∈ trace)
    (hroom : pc.expanding = true → s.pool.canGrow addr = true) (hpc : pc.OnTrack parse) :
    next.OnTrack parse := by
  subst hparse
  have hallow : ∀ source destination decision,
      .evaluated i source destination decision ∈ out → decision = .allow :=
    fun source destination decision hmem => hsmooth.policy (List.mem_append_left out hcalled)
      (List.mem_append_right trace hmem)
  cases h <;> cases hconn
  case exhaust => exact absurd hpc (by simp [Pc.OnTrack])
  case full hfull => exact absurd (hroom rfl) (by simp [hfull])
  case fallBack => exact hpc.elim
  case fallBackNone => exact hpc.elim
  case handshake =>
    obtain ⟨tls, peer, heq, hmux, hpeer⟩ := hsmooth.handshakes (i := i)
      (List.mem_append_right trace (List.mem_cons_self ..))
    cases heq
    exact ⟨hmux, peer, hpeer⟩
  case handshakeError =>
    obtain ⟨tls, peer, heq, -⟩ := hsmooth.handshakes (i := i)
      (List.mem_append_right trace (List.mem_cons_self ..))
    cases heq
  case identify => exact hpc.1
  case parse => exact hpc.1
  case identifyError hfound =>
    obtain ⟨-, peer, hpeer⟩ := hpc
    cases (identity_of_failed hfound).symm.trans hpeer
  case cache => exact hpc
  case scan => exact onTrack_evaluatingGlobal.mpr hpc
  case decideNamespace hscan =>
    cases hallow _ _ _ (List.mem_cons_self ..)
    exact onTrack_decided hpc
  case decideGlobal hscan =>
    cases hallow _ _ _ (List.mem_cons_self ..)
    exact onTrack_decided (onTrack_evaluatingGlobal.mp hpc)
  case openPooled => exact ⟨_, rfl⟩
  case openFresh => exact (onTrack_leave _).mpr ⟨_, rfl⟩
  case openError tunnel => exact absurd (by simp) (hsmooth.opens i tunnel)
  case unreserve => exact hpc.elim
  case evictPooled => exact hpc.elim
  case evictFresh => exact hpc.elim
  case unlock => exact hpc
  case returnMux => exact hpc
  case returnLegacy => exact hpc
  case relay => exact hpc
  case relayEnd => exact hpc
  all_goals trivial

theorem registeredAt_append (addr : SocketAddr) (trace out : List Observation) :
    registeredAt addr (trace ++ out) = registeredAt addr trace ++ registeredAt addr out := by
  simp [registeredAt]

theorem dials_append (addr : SocketAddr) (trace out : List Observation) :
    dials addr (trace ++ out) = dials addr trace + dials addr out :=
  List.countP_append

theorem balance_decided {subject : Subject} {decision : Decision}
    (h : (decided subject decision).OnTrack parse) :
    (decided subject decision).establishing = (Pc.evaluating subject).establishing := by
  cases subject with
  | tunnel attempts tunnel => cases decision <;> rfl
  | stream locked tls =>
      cases decision with
      | allow =>
          simp only [decided] at h ⊢
          split at h
          next hmux => simp [hmux, Pc.establishing, Pc.growing]
          next =>
            obtain ⟨tunnel, heq⟩ := (onTrack_leave locked).mp h
            cases heq
      | deny reason =>
          obtain ⟨tunnel, heq⟩ := (onTrack_leave locked).mp h
          cases heq

theorem establishes_routing (addr : SocketAddr) (pc : Pc) :
    (Conn.routing addr pc).establishes addr = pc.establishing := by
  simp [Conn.establishes]

private theorem balance_of_eq (hdials : dials addr out = 0)
    (hregistered : registeredAt addr out = []) (hnext : next.establishing = pc.establishing) :
    dials addr out + pc.establishing.toNat =
      (registeredAt addr out).length + ((Conn.routing addr next).establishes addr).toNat := by
  rw [hdials, hregistered, establishes_routing, hnext, List.length_nil]

theorem Move.balance (h : Move proxy shared s i addr pc effect conn out)
    (honce : pc.UnlocksOnce) (hnext : ∀ next, conn = .routing addr next → next.OnTrack parse) :
    dials addr out + pc.establishing.toNat =
      (registeredAt addr out).length + (conn.establishes addr).toNat := by
  cases h
  case dial => simp [dials, registeredAt, registrations, establishes_routing, Pc.establishing,
    Pc.growing]
  case push => simp [dials, registeredAt, registrations, establishes_routing, Pc.establishing,
    Pc.growing]
  case handshakeError | identifyError =>
    obtain ⟨tunnel, heq⟩ := (onTrack_leave _).mp (hnext _ rfl)
    cases heq
  case decideNamespace => exact balance_of_eq rfl rfl (balance_decided (hnext _ rfl))
  case decideGlobal subject _ _ =>
    refine balance_of_eq rfl rfl ((balance_decided (hnext _ rfl)).trans ?_)
    cases subject <;> rfl
  case scan subject _ => exact balance_of_eq rfl rfl (by cases subject <;> rfl)
  case openFresh => exact balance_of_eq rfl rfl (establishing_leave _ rfl)
  case evictFresh => exact balance_of_eq rfl rfl (establishing_leave _ rfl)
  case unlock => exact balance_of_eq rfl rfl (establishing_leave false honce)
  case returnDenied | returnFailed | dropMux | dropOther => rfl
  all_goals exact balance_of_eq rfl rfl rfl

theorem Move.registeredAt (h : Move proxy shared s i addr pc effect conn out) :
    registeredAt addr out = [] ∨
      ∃ locked tunnel, pc = .pushing locked tunnel ∧
        conn = .routing addr (.spawning locked tunnel) ∧ registeredAt addr out = [tunnel] := by
  cases h
  case push locked tunnel =>
    exact .inr ⟨locked, tunnel, rfl, rfl, by simp [OutboundProxy.registeredAt, registrations]⟩
  all_goals exact .inl rfl

theorem Move.of_evicted (h : Move proxy shared s i addr pc effect conn out)
    {other : SocketAddr} {id : Nat} (hmem : .evicted other id ∈ out) :
    other = addr ∧ ∃ origin tunnel, pc = .evicting origin tunnel := by
  cases h <;> simp at hmem
  case evictPooled => exact ⟨hmem.1, _, _, rfl⟩
  case evictFresh => exact ⟨hmem.1, _, _, rfl⟩

theorem Move.of_routed (h : Move proxy shared s i addr pc effect conn out) {j : Nat}
    {other : SocketAddr} {route : Route} (hmem : .routed j other route ∈ out) :
    other = addr ∧ pc = .returning route := by
  cases h <;> simp at hmem
  all_goals
    obtain ⟨-, rfl, rfl⟩ := hmem
    exact ⟨rfl, rfl⟩

end Moves

/-! ## The invariant -/

structure Single (parse : X509Parser) (addr : SocketAddr) (trace : List Observation)
    (s : State) : Prop where
  conns : ∀ (j : Nat) (pc : Pc), s.conns[j]? = some (.routing addr pc) →
    .routeCalled j addr ∈ trace ∧ pc.OnTrack parse ∧
      (pc.expanding = true → registeredAt addr trace = [])
  kept : ∀ id, .evicted addr id ∉ trace
  drivers : ∀ tunnel, .exited addr tunnel ∉ s.drivers
  balance : dials addr trace =
    (registeredAt addr trace).length + s.conns.countP (Conn.establishes addr)
  single : (registeredAt addr trace).length ≤ 1
  returned : ∀ j route, .routed j addr route ∈ trace → registeredAt addr trace ≠ []

def Observation.Elsewhere (addr : SocketAddr) : Observation → Prop
  | .dialed _ other | .registered other _ | .evicted other _ | .routed _ other _ =>
      other ≠ addr
  | _ => True

section Steps

variable {parse : X509Parser} {proxy : OutboundProxy} {shared : Shared} {s s' : State}
  {i : Nat} {addr other : SocketAddr} {pc : Pc} {effect : Effect} {conn : Conn} {e : Event}
  {trace out : List Observation}

theorem registeredAt_elsewhere (h : ∀ o ∈ out, o.Elsewhere addr) :
    registeredAt addr out = [] := by
  refine List.eq_nil_iff_forall_not_mem.mpr fun tunnel hmem => ?_
  exact h _ (mem_registeredAt.mp hmem) rfl

theorem dials_elsewhere (h : ∀ o ∈ out, o.Elsewhere addr) : dials addr out = 0 := by
  refine List.countP_eq_zero.mpr fun o hmem ho => ?_
  cases o with
  | dialed j other => exact h _ hmem (of_decide_eq_true ho)
  | _ => cases ho

theorem Single.frame (h : Single parse addr trace s) (hout : ∀ o ∈ out, o.Elsewhere addr)
    (hconns : ∀ (j : Nat) (pc : Pc), s'.conns[j]? = some (.routing addr pc) →
      s.conns[j]? = some (.routing addr pc))
    (hcount : s'.conns.countP (Conn.establishes addr) =
      s.conns.countP (Conn.establishes addr))
    (hdrivers : ∀ tunnel, .exited addr tunnel ∉ s'.drivers) :
    Single parse addr (trace ++ out) s' := by
  have hsame : registeredAt addr (trace ++ out) = registeredAt addr trace := by
    rw [registeredAt_append, registeredAt_elsewhere hout, List.append_nil]
  refine ⟨fun j pc hj => ?_, fun id hmem => ?_, hdrivers, ?_, ?_, fun j route hmem => ?_⟩
  · obtain ⟨hcalled, htrack, hexpanding⟩ := h.conns j pc (hconns j pc hj)
    exact ⟨List.mem_append_left out hcalled, htrack, hsame ▸ hexpanding⟩
  · rcases List.mem_append.mp hmem with hmem | hmem
    · exact h.kept id hmem
    · exact hout _ hmem rfl
  · rw [hsame, hcount, dials_append, dials_elsewhere hout, h.balance, Nat.add_zero]
  · rw [hsame]
    exact h.single
  · rw [hsame]
    rcases List.mem_append.mp hmem with hmem | hmem
    · exact h.returned j route hmem
    · exact absurd rfl (hout _ hmem)

theorem Move.elsewhere (h : Move proxy shared s i other pc effect conn out)
    (hother : other ≠ addr) : ∀ o ∈ out, o.Elsewhere addr := by
  intro o hmem
  cases h <;> simp at hmem
  all_goals first
    | (subst hmem; first | exact hother | trivial)
    | (rcases hmem with rfl | rfl <;> first | exact hother | trivial)

theorem Single.registeredAt_eq_peers (h : Single parse addr trace s)
    (hregistry : Registry trace s) : s.pool.peers addr = registeredAt addr trace := by
  rw [hregistry.peers, tunnelsOf, List.filter_eq_self]
  exact fun tunnel _ => decide_eq_true (h.kept tunnel.id)

theorem Effect.exited_mem_onDrivers {drivers : List Driver} {tunnel : Tunnel}
    (h : .exited addr tunnel ∈ effect.onDrivers other drivers) :
    .exited addr tunnel ∈ drivers := by
  cases effect
  case spawn carrier => simpa [Effect.onDrivers] using h
  all_goals exact h

/-- Whoever turns to growth finds no tunnel registered. -/
theorem Single.eq_nil_of_expanding (h : Single parse addr trace s)
    (hpooled : Pooled trace s) (hcount : s.conns.countP (Conn.routes addr) ≤ streamsPerTunnel)
    (hi : s.conns[i]? = some (.routing addr pc))
    (hmove : Move proxy shared s i addr pc effect conn out) {next : Pc}
    (hconn : conn = .routing addr next) (hnext : next.expanding = true) :
    registeredAt addr trace = [] := by
  have honce := hpooled.growth.locks.once i addr pc hi
  rcases hmove.expanding honce hconn hnext with hpc | ⟨hfree, hpick⟩
  · exact (h.conns i pc hi).2.2 hpc
  · rw [← h.registeredAt_eq_peers hpooled.registry]
    exact hpooled.peers_eq_nil hi hfree hcount hpick

theorem Growth.not_expanding_of_pushing (hgrowth : Growth s) {j : Nat} {locked : Bool}
    {tunnel : Tunnel} {pcJ : Pc} (hi : s.conns[i]? = some (.routing addr (.pushing locked tunnel)))
    (hj : s.conns[j]? = some (.routing addr pcJ)) (hne : j ≠ i) : pcJ.expanding = false := by
  refine Bool.eq_false_iff.mpr fun hexpanding => hne ?_
  have hlockedI := hgrowth.locked i addr _ hi rfl
  have hlockedJ : pcJ.locked = true := by
    cases pcJ with
    | checkingGrowth attempts => rfl
    | _ => exact hgrowth.locked j addr _ hj hexpanding
  exact hgrowth.locks.eq_of_locked hj hi hlockedJ hlockedI

theorem Single.move (h : Single parse addr trace s) (hpooled : Pooled trace s)
    (hcount : s.conns.countP (Conn.routes addr) ≤ streamsPerTunnel)
    (hparse : shared.parse = parse) (hsmooth : Smooth parse addr (trace ++ out))
    (hi : s.conns[i]? = some (.routing addr pc))
    (hmove : Move proxy shared s i addr pc effect conn out) :
    Single parse addr (trace ++ out) (s.perform i addr effect conn) := by
  obtain ⟨hcalled, htrack, hexpanding⟩ := h.conns i pc hi
  have honce := hpooled.growth.locks.once i addr pc hi
  have hroom : pc.expanding = true → s.pool.canGrow addr = true := fun hpc => by
    rw [MuxPool.canGrow_iff, h.registeredAt_eq_peers hpooled.registry, hexpanding hpc]
    decide
  have hnext : ∀ next, conn = .routing addr next → next.OnTrack parse := fun next hconn =>
    hmove.onTrack hconn hparse hsmooth hcalled hroom htrack
  refine ⟨fun j pcJ hj => ?_, fun id hmem => ?_, fun tunnel hmem => ?_, ?_, ?_,
    fun j route hmem => ?_⟩
  · rcases Tasks.getElem?_set_cases hj with ⟨rfl, hconn⟩ | ⟨hne, hold⟩
    · refine ⟨List.mem_append_left out hcalled, hnext pcJ hconn, fun hpcJ => ?_⟩
      have hnil := h.eq_nil_of_expanding hpooled hcount hi hmove hconn hpcJ
      rcases hmove.registeredAt with hout | ⟨locked, tunnel, -, hspawning, -⟩
      · rw [registeredAt_append, hnil, hout, List.append_nil]
      · cases hspawning.symm.trans hconn
        cases hpcJ
    · obtain ⟨hcalledJ, htrackJ, hexpandingJ⟩ := h.conns j pcJ hold
      refine ⟨List.mem_append_left out hcalledJ, htrackJ, fun hpcJ => ?_⟩
      rcases hmove.registeredAt with hout | ⟨locked, tunnel, rfl, -, -⟩
      · rw [registeredAt_append, hexpandingJ hpcJ, hout, List.append_nil]
      · have hnone := hpooled.growth.not_expanding_of_pushing hi hold hne
        exact absurd (hnone.symm.trans hpcJ) Bool.false_ne_true
  · rcases List.mem_append.mp hmem with hmem | hmem
    · exact h.kept id hmem
    · obtain ⟨-, origin, tunnel, rfl⟩ := hmove.of_evicted hmem
      exact htrack
  · exact h.drivers tunnel (Effect.exited_mem_onDrivers hmem)
  · have hbalance := hmove.balance honce hnext
    have hset := Tasks.countP_set hi conn (Conn.establishes addr)
    have hold := h.balance
    rw [establishes_routing] at hset
    rw [dials_append, registeredAt_append, List.length_append]
    simp only [State.perform]
    omega
  · rw [registeredAt_append, List.length_append]
    rcases hmove.registeredAt with hout | ⟨locked, tunnel, rfl, -, hout⟩
    · rw [hout]
      exact h.single
    · rw [hout, hexpanding rfl]
      exact le_rfl
  · have hregistered : OutboundProxy.registeredAt addr trace ≠ [] := by
      rcases List.mem_append.mp hmem with hmem | hmem
      · exact h.returned j route hmem
      · obtain ⟨-, rfl⟩ := hmove.of_routed hmem
        obtain ⟨tunnel, rfl⟩ := htrack
        exact List.ne_nil_of_mem
          (mem_registeredAt.mpr (hpooled.registry.held i addr _ hi tunnel rfl))
    rw [registeredAt_append]
    exact List.append_ne_nil_of_left_ne_nil hregistered _

theorem Single.enter (h : Single parse addr trace s) (hmux : proxy.muxEnabled = true)
    {target : UpstreamTarget} (hi : s.conns[i]? = some (.resolving target)) :
    Single parse addr (trace ++ [.routeCalled i other])
      (s.goto i (.routing other proxy.route)) := by
  have hroute : proxy.route = .picking 4 := by simp [route, hmux]
  have hsame : registeredAt addr (trace ++ [.routeCalled i other]) = registeredAt addr trace := by
    simp [registeredAt, registrations]
  refine ⟨fun j pc hj => ?_, by simpa using h.kept, h.drivers, ?_, by rw [hsame]; exact h.single,
    fun j route hmem => ?_⟩
  · rw [hsame]
    rcases Tasks.getElem?_set_cases hj with ⟨rfl, heq⟩ | ⟨-, hold⟩
    · rw [hroute] at heq
      cases heq
      exact ⟨by simp, Nat.succ_pos 3, fun hexpanding => by cases hexpanding⟩
    · obtain ⟨hcalled, htrack, hexpanding⟩ := h.conns j pc hold
      exact ⟨List.mem_append_left _ hcalled, htrack, hexpanding⟩
  · have hcount : (s.conns.set i (.routing other proxy.route)).countP (Conn.establishes addr) =
        s.conns.countP (Conn.establishes addr) :=
      Tasks.countP_set_of_eq hi (by simp [Conn.establishes, hroute, Pc.establishing, Pc.growing])
    rw [hsame, dials_append, h.balance]
    simp only [State.goto, hcount]
    rfl
  · rw [hsame]
    exact h.returned j route (by simpa using hmem)

theorem establishes_of_ne (hother : other ≠ addr) (pc : Pc) :
    (Conn.routing other pc).establishes addr = false := by
  simp [Conn.establishes, hother]

theorem Single.step (h : Single parse addr trace s) (hpooled : Pooled trace s)
    (hmux : proxy.muxEnabled = true)
    (hcount : s.conns.countP (Conn.routes addr) ≤ streamsPerTunnel)
    (hparse : shared.parse = parse) (hsmooth : Smooth parse addr (trace ++ out))
    (hview : View proxy shared s e s' out) : Single parse addr (trace ++ out) s' := by
  cases hview with
  | quiet hquiet =>
      refine h.frame (fun o ho => ?_) (fun j pc hj => (hquiet.conns j addr pc).mp hj)
        (hquiet.count _ fun conn hconn => ?_) (by rw [hquiet.drivers]; exact h.drivers)
      · obtain ⟨metric, rfl⟩ := hquiet.out o ho
        trivial
      · cases conn with
        | routing other pc => exact absurd rfl (hconn other pc)
        | _ => rfl
  | enter _ hi other => exact h.enter hmux hi
  | @move _ i other pc effect conn out _ hi hmove =>
      by_cases hother : other = addr
      · subst hother
        exact h.move hpooled hcount hparse hsmooth hi hmove
      · have hconn : conn.establishes addr = false := by
          cases conn with
          | routing target next =>
              obtain rfl := hmove.routing_eq rfl
              exact establishes_of_ne hother next
          | _ => rfl
        refine h.frame (hmove.elsewhere hother) (fun j pcJ hj => ?_)
          (Tasks.countP_set_of_eq hi (hconn.trans (establishes_of_ne hother pc).symm))
          fun tunnel hmem => h.drivers tunnel (Effect.exited_mem_onDrivers hmem)
        exact Tasks.getElem?_of_set hj fun heq => hother (hmove.routing_eq heq).symm
  | @driverExit d other tunnel hd =>
      refine h.frame (by simp [Observation.Elsewhere]) (fun j pc hj => hj) rfl
        fun carrier hmem => ?_
      rcases List.mem_or_eq_of_mem_set hmem with hmem | heq
      · exact h.drivers carrier hmem
      · cases heq
        exact hsmooth.tunnels tunnel (by simp)
  | @driverEvict d other tunnel hd =>
      have hother : other ≠ addr := by
        rintro rfl
        exact h.drivers tunnel (List.mem_of_getElem? hd)
      refine h.frame (by simpa [Observation.Elsewhere] using hother) (fun j pc hj => hj) rfl
        fun carrier hmem => ?_
      rcases List.mem_or_eq_of_mem_set hmem with hmem | heq
      · exact h.drivers carrier hmem
      · cases heq

theorem Single.initial (proxy : OutboundProxy) (parse : X509Parser) (addr : SocketAddr) :
    Single parse addr [] proxy.initial where
  conns j pc hj := by simp [OutboundProxy.initial] at hj
  kept := by simp
  drivers := by simp [OutboundProxy.initial]
  balance := rfl
  single := Nat.zero_le 1
  returned := by simp

/-! ## Counting the dials -/

theorem expanding_of_establishing (h : pc.establishing = true) : pc.expanding = true := by
  cases pc with
  | checkingGrowth attempts => rfl
  | dialing locked => rfl
  | _ => exact h

theorem Growth.countP_establishes_le_one (hgrowth : Growth s) :
    s.conns.countP (Conn.establishes addr) ≤ 1 := by
  have hlocked : ∀ (j : Nat) (conn : Conn), s.conns[j]? = some conn →
      conn.establishes addr = true → ∃ pc : Pc, conn = .routing addr pc ∧ pc.locked = true := by
    intro j conn hj hconn
    cases conn with
    | routing other pc =>
        simp only [Conn.establishes, Bool.and_eq_true, decide_eq_true_eq] at hconn
        obtain ⟨rfl, hpc⟩ := hconn
        refine ⟨pc, rfl, hgrowth.locked j other pc hj ?_⟩
        cases pc with
        | dialing locked => cases hpc
        | _ => exact hpc
    | _ => cases hconn
  refine Tasks.countP_le_one fun j k a b hj hk ha hb => ?_
  obtain ⟨pcJ, rfl, hlockedJ⟩ := hlocked j a hj ha
  obtain ⟨pcK, rfl, hlockedK⟩ := hlocked k b hk hb
  exact hgrowth.locks.eq_of_locked hj hk hlockedJ hlockedK

theorem Single.countP_establishes (h : Single parse addr trace s)
    (hregistered : registeredAt addr trace ≠ []) :
    s.conns.countP (Conn.establishes addr) = 0 := by
  refine List.countP_eq_zero.mpr fun conn hmem hconn => ?_
  obtain ⟨j, hj⟩ := List.getElem?_of_mem hmem
  cases conn with
  | routing other pc =>
      simp only [Conn.establishes, Bool.and_eq_true, decide_eq_true_eq] at hconn
      obtain ⟨rfl, hpc⟩ := hconn
      exact hregistered ((h.conns j pc hj).2.2 (expanding_of_establishing hpc))
  | _ => cases hconn

theorem Single.dials_of_registered (h : Single parse addr trace s)
    (hregistered : registeredAt addr trace ≠ []) : dials addr trace = 1 := by
  have hpos := List.length_pos_of_ne_nil hregistered
  have hone := h.single
  rw [h.balance, h.countP_establishes hregistered]
  omega

theorem Single.dials_le_one (h : Single parse addr trace s) (hgrowth : Growth s) :
    dials addr trace ≤ 1 := by
  by_cases hregistered : registeredAt addr trace = []
  · rw [h.balance, hregistered]
    simpa using hgrowth.countP_establishes_le_one
  · exact (h.dials_of_registered hregistered).le

end Steps

end Interlink.OutboundProxy

namespace Interlink.Node

open Interlink.Foundation OutboundProxy

/--
At most one handshake with the address is started, and exactly one once any `route`
call to it has returned.
-/
theorem dials_eq_one {node : Node} (hmux : node.outbound.muxEnabled = true)
    {parse : X509Parser} {policy : PolicyEngine} {events : List Event} {s : State}
    {trace : List Observation} {addr : SocketAddr}
    (hrun : node.step.exec (node.initial parse policy) events = some (s, trace))
    (hload : node.step.Always
      (fun s _ => s.outbound.conns.countP (Conn.routes addr) ≤ streamsPerTunnel)
      (node.initial parse policy) events)
    (hsmooth : Smooth parse addr (outboundTrace trace)) :
    dials addr (outboundTrace trace) ≤ 1 ∧
      ∀ i route, .routed i addr route ∈ outboundTrace trace →
        dials addr (outboundTrace trace) = 1 := by
  have hlast : Pooled (outboundTrace trace) s.outbound ∧
      (Smooth parse addr (outboundTrace trace) →
        Single parse addr (outboundTrace trace) s.outbound) :=
    outbound_invariant_of_always
      (C := fun s _ => s.conns.countP (Conn.routes addr) ≤ streamsPerTunnel)
      (I := fun trace s => Pooled trace s ∧ (Smooth parse addr trace → Single parse addr trace s))
      ⟨.initial node.outbound, fun _ => .initial node.outbound parse addr⟩
      (fun ⟨hpooled, hsingle⟩ hcount hparse hchange =>
        ⟨hpooled.step hmux hchange.view, fun hsmooth =>
          (hsingle hsmooth.of_append).step hpooled hmux hcount hparse hsmooth hchange.view⟩)
      hload hrun
  obtain ⟨hpooled, hsingle⟩ := hlast
  refine ⟨(hsingle hsmooth).dials_le_one hpooled.growth, fun i route hrouted => ?_⟩
  exact (hsingle hsmooth).dials_of_registered ((hsingle hsmooth).returned i route hrouted)

section Example

open Example

/--
Two connections find no tunnel; the second waits for the lock and then uses the tunnel
of the first.
-/
private def sharedTunnel : List OutboundProxy.Event :=
  [OutboundProxy.Event.accept none, .accept none] ++
    List.replicate 5 (OutboundProxy.Event.run 0) ++
    List.replicate 4 (OutboundProxy.Event.run 1) ++
    List.replicate 3 (OutboundProxy.Event.run 0) ++
    [OutboundProxy.Event.handshaken 0 muxHandshake] ++
    List.replicate 8 (OutboundProxy.Event.run 0) ++ [OutboundProxy.Event.opened 0 true] ++
    List.replicate 2 (OutboundProxy.Event.run 0) ++
    List.replicate 6 (OutboundProxy.Event.run 1) ++
    [OutboundProxy.Event.opened 1 true, .run 1]

theorem sharedTunnel_dials :
    ∃ last, sidecar.step.exec (sidecar.initial readSvid allowAny)
        (sharedTunnel.map .outbound) = some last ∧
      .routed 1 application (.muxStream ⟨0, workload, ⟨0, some [svid], some alpnMux⟩⟩) ∈
        outboundTrace last.2 ∧
      dials application (outboundTrace last.2) = 1 := by
  have hload : sidecar.step.Always
      (fun s _ => s.outbound.conns.countP (Conn.routes application) ≤ streamsPerTunnel)
      (sidecar.initial readSvid allowAny) (sharedTunnel.map .outbound) := by
    decide +kernel
  have hlast : (sidecar.step.exec (sidecar.initial readSvid allowAny)
      (sharedTunnel.map .outbound)).any (fun last =>
        (outboundTrace last.2).all (fun o =>
          o.Smooth readSvid application (outboundTrace last.2)) &&
        (outboundTrace last.2).contains (.routed 1 application
          (.muxStream ⟨0, workload, ⟨0, some [svid], some alpnMux⟩⟩))) = true := by
    decide +kernel
  obtain ⟨last, hrun, hboth⟩ := (Option.any_eq_true _ _).mp hlast
  obtain ⟨hall, hmem⟩ := (Bool.and_eq_true _ _).mp hboth
  have hsmooth : Smooth readSvid application (outboundTrace last.2) := fun o ho =>
    of_decide_eq_true (List.all_eq_true.mp hall o ho)
  have hrouted := List.contains_iff_mem.mp hmem
  exact ⟨last, hrun, hrouted, (dials_eq_one rfl hrun hload hsmooth).2 1 _ hrouted⟩

end Example

end Interlink.Node
