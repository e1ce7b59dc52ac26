import Interlink.Identity.Authority
import Interlink.Proxy.Node
import Interlink.Proxy.OutboundAuthorization

/-!
# Expiry of the certificates behind a stream

A sidecar with a clock.  A full handshake accepts only certificates that are valid
when it happens; a resumed one and a stream on a pooled tunnel rest on a check made
earlier, and no code compares the time again.
-/

namespace Interlink

open Interlink.Foundation

namespace TlsSession

def expired (validity : Der → Validity) (now : UnixTime) (session : TlsSession) : Bool :=
  match session.leaf with
  | .ok leafDer => (validity leafDer).notAfter < now
  | .error _ => false

def unexpired (validity : Der → Validity) (now : UnixTime) (session : TlsSession) : Bool :=
  match session.leaf with
  | .ok leafDer => now ≤ (validity leafDer).notAfter
  | .error _ => false

variable {validity : Der → Validity} {now : UnixTime} {session : TlsSession}

theorem unexpired_iff : session.unexpired validity now = true ↔
    ∃ leafDer, session.leaf = .ok leafDer ∧ now ≤ (validity leafDer).notAfter := by
  unfold unexpired
  cases session.leaf with
  | error error => simp
  | ok leafDer => simp

theorem unexpired_of_not_expired (hleaf : ∃ leafDer, session.leaf = .ok leafDer)
    (h : session.expired validity now = false) : session.unexpired validity now = true := by
  obtain ⟨leafDer, hleaf⟩ := hleaf
  simp only [expired, hleaf, decide_eq_false_iff_not] at h
  simpa only [unexpired, hleaf, decide_eq_true_eq] using Nat.le_of_not_lt h

theorem exists_leaf_of_extractIdentity {parse : X509Parser} {cache : IdentityCache}
    {lookup : Lookup} (h : extractIdentity parse cache session = lookup)
    (hlookup : ∀ error, lookup ≠ .failed error) : ∃ leafDer, session.leaf = .ok leafDer := by
  cases hleaf : session.leaf with
  | ok leafDer => exact ⟨leafDer, rfl⟩
  | error error =>
      simp only [extractIdentity, hleaf] at h
      exact absurd h.symm (hlookup error)

end TlsSession

namespace OutboundProxy

/-! ## The sessions a route call holds -/

def Subject.session : Subject → TlsSession
  | .tunnel _ carrier => carrier.session
  | .stream _ tls => tls.session

/-- The session that the stream of the call will be on. -/
def Pc.session : Pc → Option TlsSession
  | .identifying _ session => some session
  | .caching _ _ tls | .numbering _ tls => some tls.session
  | .evaluating subject | .evaluatingGlobal subject => some subject.session
  | .pushing _ tunnel | .spawning _ tunnel | .reserving _ tunnel | .opening _ tunnel =>
      some tunnel.session
  | .unlocking next => next.session
  | .returning route => route.session
  | _ => none

def Conn.session : Conn → Option TlsSession
  | .routing _ pc => pc.session
  | _ => none

def State.picks (s : State) (i : Nat) : Option Tunnel :=
  match s.conns[i]? with
  | some (.routing addr (.picking (_ + 1))) => s.pool.pickUnderCap addr
  | some (.routing addr (.rechecking _)) => s.pool.pickUnderCap addr
  | some (.routing addr (.fallingBack _)) => s.pool.pickAny addr
  | _ => none

def Pc.Current (validity : Der → Validity) (now : UnixTime) : Pc → Prop
  | .identifying _ session => session.expired validity now = false
  | .caching _ _ tls | .numbering _ tls => tls.session.unexpired validity now = true
  | .evaluating subject | .evaluatingGlobal subject =>
      subject.session.unexpired validity now = true
  | .pushing _ tunnel | .spawning _ tunnel | .reserving _ tunnel | .opening _ tunnel =>
      tunnel.session.unexpired validity now = true
  | .unlocking next => next.Current validity now
  | .returning route =>
      ∀ session, route.session = some session → session.unexpired validity now = true
  | _ => True

section Current

variable {validity : Der → Validity} {now later : UnixTime}

theorem current_leave {locked : Bool} {pc : Pc} :
    (leave locked pc).Current validity now ↔ pc.Current validity now := by
  cases locked <;> rfl

theorem current_decided {subject : Subject}
    (h : subject.session.unexpired validity now = true) (decision : Decision) :
    (decided subject decision).Current validity now := by
  have hnone : ∀ route : Route, route.session = none →
      (Pc.returning route).Current validity now := by
    intro route hroute session hsession
    rw [hroute] at hsession
    cases hsession
  revert h
  refine decided_cases (P := fun subject pc => subject.session.unexpired validity now = true →
    pc.Current validity now) ?_ ?_ ?_ ?_ ?_ subject decision
  · exact fun _ _ h => h
  · exact fun _ _ _ => hnone _ rfl
  · exact fun _ _ h => h
  · intro locked tls h
    rw [current_leave]
    intro session hsession
    rw [← Option.some.inj hsession]
    exact h
  · exact fun _ _ _ => current_leave.mpr (hnone _ rfl)

theorem Pc.Current.advance {pc : Pc} (h : pc.Current validity now)
    (hlater : ∀ session, pc.session = some session → session.expired validity later = false) :
    pc.Current validity later := by
  have hkeep : ∀ {session : TlsSession}, session.unexpired validity now = true →
      session.expired validity later = false → session.unexpired validity later = true := by
    intro session hnow hexpired
    obtain ⟨leafDer, hleaf, -⟩ := TlsSession.unexpired_iff.mp hnow
    exact TlsSession.unexpired_of_not_expired ⟨leafDer, hleaf⟩ hexpired
  induction pc with
  | identifying locked session => exact hlater session rfl
  | caching locked leafDer tls => exact hkeep h (hlater _ rfl)
  | numbering locked tls => exact hkeep h (hlater _ rfl)
  | evaluating subject => exact hkeep h (hlater _ rfl)
  | evaluatingGlobal subject => exact hkeep h (hlater _ rfl)
  | pushing locked tunnel => exact hkeep h (hlater _ rfl)
  | spawning locked tunnel => exact hkeep h (hlater _ rfl)
  | reserving origin tunnel => exact hkeep h (hlater _ rfl)
  | opening origin tunnel => exact hkeep h (hlater _ rfl)
  | unlocking next ih => exact ih h hlater
  | returning route =>
      intro session hsession
      exact hkeep (h session hsession) (hlater session hsession)
  | _ => trivial

variable {proxy : OutboundProxy} {shared shared' : Shared} {s s' : State} {i : Nat}
  {addr : SocketAddr} {pc : Pc} {effect : Effect} {conn : Conn} {out : List Observation}

theorem Move.picks (h : Move proxy shared s i addr pc effect conn out)
    (hi : s.conns[i]? = some (.routing addr pc)) {j : Nat} {other : SocketAddr}
    {tunnel : Tunnel} (hmem : .picked j other tunnel ∈ out) : s.picks i = some tunnel := by
  cases h with
  | pick hpick =>
      obtain ⟨-, -, rfl⟩ : _ ∧ _ ∧ _ := by simpa using hmem
      simpa [State.picks, hi] using hpick
  | recheck hpick =>
      obtain ⟨-, -, rfl⟩ : _ ∧ _ ∧ _ := by simpa using hmem
      simpa [State.picks, hi] using hpick
  | fallBack hpick =>
      obtain ⟨-, -, rfl⟩ : _ ∧ _ ∧ _ := by simpa using hmem
      simpa [State.picks, hi] using hpick
  | _ => simp at hmem

theorem Move.routed (h : Move proxy shared s i addr pc effect conn out) {j : Nat}
    {other : SocketAddr} {route : Route} (hmem : .routed j other route ∈ out) :
    pc = .returning route := by
  cases h <;> simp at hmem <;> rw [hmem.2.2]

theorem Move.current (h : Move proxy shared s i addr pc effect conn out)
    (hpc : pc.Current validity now)
    (hpicked : ∀ j other tunnel, .picked j other tunnel ∈ out →
      tunnel.session.unexpired validity now = true)
    (hhandshaken : ∀ j other session, .handshaken j other (some session) ∈ out →
      session.expired validity now = false)
    {other : SocketAddr} {next : Pc} (hnext : conn = .routing other next) :
    next.Current validity now := by
  have hfailed : (Pc.returning .failed).Current validity now := by
    intro session hsession
    cases hsession
  cases h with
  | pick hpick =>
      cases hnext
      exact hpicked i addr _ (by simp)
  | recheck hpick =>
      cases hnext
      exact hpicked i addr _ (by simp)
  | fallBack hpick =>
      cases hnext
      exact hpicked i addr _ (by simp)
  | handshake handshake =>
      cases hnext
      exact hhandshaken i addr _ (by simp)
  | identify hfound =>
      cases hnext
      exact TlsSession.unexpired_of_not_expired
        (TlsSession.exists_leaf_of_extractIdentity hfound (by simp)) hpc
  | parse hfound =>
      cases hnext
      exact TlsSession.unexpired_of_not_expired
        (TlsSession.exists_leaf_of_extractIdentity hfound (by simp)) hpc
  | exhaust =>
      cases hnext
      exact hfailed
  | handshakeError =>
      cases hnext
      exact current_leave.mpr hfailed
  | identifyError hfound =>
      cases hnext
      exact current_leave.mpr hfailed
  | evictFresh =>
      cases hnext
      exact current_leave.mpr hfailed
  | decideNamespace hscan =>
      cases hnext
      exact current_decided hpc _
  | decideGlobal hscan =>
      cases hnext
      exact current_decided hpc _
  | openPooled =>
      cases hnext
      intro session hsession
      rw [← Option.some.inj hsession]
      exact hpc
  | openFresh =>
      cases hnext
      rw [current_leave]
      intro session hsession
      rw [← Option.some.inj hsession]
      exact hpc
  | cache | scan | number | push | spawn | reserve | unlock =>
      cases hnext
      exact hpc
  | _ => cases hnext <;> trivial

/-! ## What a step brings in -/

private theorem Move.connecting (h : Move proxy shared s i addr pc effect conn out) {j : Nat}
    {other : SocketAddr} {session : TlsSession}
    (hmem : .handshaken j other (some session) ∈ out) :
    ∃ locked, pc = .connecting locked := by
  cases h <;> simp at hmem
  exact ⟨_, rfl⟩

private theorem connecting_of_performed (proxy : OutboundProxy) {react : Reaction}
    {session : TlsSession} {j : Nat} {other : SocketAddr}
    (hmove : ∀ {effect conn out}, react = some (effect, conn, out) →
      Move proxy shared s i addr pc effect conn out)
    (h : performed shared s i addr react = some (shared', s', out))
    (hmem : .handshaken j other (some session) ∈ out) :
    react ≠ none ∧ ∃ locked, pc = .connecting locked := by
  obtain ⟨⟨effect, conn, out⟩, hreact, heq⟩ := Option.map_eq_some_iff.mp h
  cases heq
  exact ⟨by simp [hreact], (hmove hreact).connecting hmem⟩

theorem handshaken_event {e : Event} {session : TlsSession} {j : Nat} {other : SocketAddr}
    (h : step proxy shared s e = some (shared', s', out))
    (hmem : .handshaken j other (some session) ∈ out) :
    ∃ i handshake, e = .handshaken i (.ok handshake) ∧
      session = handshake.session s.sessions := by
  cases e with
  | accept originalDst =>
      cases step_change h with
      | move he => cases he
      | _ => simp at hmem
  | run i =>
      obtain ⟨conn, hi, hrun⟩ := Option.bind_eq_some_iff.mp h
      cases conn with
      | routing addr pc =>
          obtain ⟨hreact, locked, rfl⟩ := connecting_of_performed proxy advance_move hrun hmem
          exact absurd rfl hreact
      | resolving target =>
          simp only [runConn, resolved] at hrun
          split at hrun <;> [split at hrun; skip] <;> cases hrun <;> simp at hmem
      | accepted target | spawned target | leaving | releasing =>
          cases hrun
          simp at hmem
      | finished => cases hrun
  | discovered i result =>
      obtain ⟨conn, hi, hdiscover⟩ := Option.bind_eq_some_iff.mp h
      cases conn with
      | resolving target =>
          simp only [discover, resolved] at hdiscover
          split at hdiscover <;> [split at hdiscover; skip] <;> cases hdiscover <;> simp at hmem
      | _ => cases hdiscover
  | handshaken i result =>
      obtain ⟨conn, hi, hrespond⟩ := Option.bind_eq_some_iff.mp h
      cases conn with
      | routing addr pc =>
          obtain ⟨⟨effect, conn, out⟩, hreact, heq⟩ := Option.map_eq_some_iff.mp hrespond
          cases heq
          cases pc <;> cases result <;> cases hreact <;> simp at hmem
          exact ⟨i, _, rfl, hmem.2.2⟩
      | _ => cases hrespond
  | opened i ok =>
      obtain ⟨conn, hi, hrespond⟩ := Option.bind_eq_some_iff.mp h
      cases conn with
      | routing addr pc =>
          obtain ⟨hreact, locked, rfl⟩ := connecting_of_performed proxy opened_move hrespond hmem
          exact absurd rfl hreact
      | _ => cases hrespond
  | relay i direction data =>
      obtain ⟨conn, hi, hrespond⟩ := Option.bind_eq_some_iff.mp h
      cases conn with
      | routing addr pc =>
          obtain ⟨hreact, locked, rfl⟩ := connecting_of_performed proxy relay_move hrespond hmem
          exact absurd rfl hreact
      | _ => cases hrespond
  | relayEnd i result =>
      obtain ⟨conn, hi, hrespond⟩ := Option.bind_eq_some_iff.mp h
      cases conn with
      | routing addr pc =>
          obtain ⟨hreact, locked, rfl⟩ := connecting_of_performed proxy relayEnd_move hrespond hmem
          exact absurd rfl hreact
      | _ => cases hrespond
  | driverExit d =>
      cases step_change h with
      | move he => cases he
      | _ => simp at hmem
  | driverEvict d =>
      cases step_change h with
      | move he => cases he
      | _ => simp at hmem

theorem run_of_picks {e : Event} {tunnel : Tunnel} (he : e.task = some i)
    (hpicks : s.picks i = some tunnel)
    (hstep : step proxy shared s e = some (shared', s', out)) : e = .run i := by
  have hwaits : ∀ {addr pc}, s.conns[i]? = some (.routing addr pc) →
      (∀ result, handshaken s i addr result pc = none) → (∀ ok, opened i addr ok pc = none) →
      (∀ direction data, relay i addr direction data pc = none) →
      (∀ result, relayEnd addr result pc = none) → e = .run i := by
    intro addr pc hi hhandshaken hopened hrelay hrelayEnd
    cases e <;> cases he
    case run => rfl
    all_goals simp [step, hi, discover, respond, performed, hhandshaken, hopened, hrelay,
      hrelayEnd] at hstep
  unfold State.picks at hpicks
  split at hpicks
  next hi => exact hwaits hi (fun _ => rfl) (fun _ => rfl) (fun _ _ => rfl) fun _ => rfl
  next hi => exact hwaits hi (fun _ => rfl) (fun _ => rfl) (fun _ _ => rfl) fun _ => rfl
  next hi => exact hwaits hi (fun _ => rfl) (fun _ => rfl) (fun _ _ => rfl) fun _ => rfl
  next => cases hpicks

theorem current_step {e : Event}
    (hcurrent : ∀ (j : Nat) (addr : SocketAddr) (pc : Pc),
      s.conns[j]? = some (.routing addr pc) → pc.Current validity now)
    (hpicks : ∀ j tunnel, e = .run j → s.picks j = some tunnel →
      tunnel.session.unexpired validity now = true)
    (hhandshake : ∀ j handshake, e = .handshaken j (.ok handshake) →
      (handshake.session s.sessions).expired validity now = false)
    (hstep : step proxy shared s e = some (shared', s', out)) :
    (∀ (j : Nat) (addr : SocketAddr) (pc : Pc),
      s'.conns[j]? = some (.routing addr pc) → pc.Current validity now) ∧
    ∀ j addr route session, .routed j addr route ∈ out → route.session = some session →
      session.unexpired validity now = true := by
  have hhandshaken : ∀ j other session, .handshaken j other (some session) ∈ out →
      session.expired validity now = false := by
    intro j other session hmem
    obtain ⟨i, handshake, he, rfl⟩ := handshaken_event hstep hmem
    exact hhandshake i handshake he
  cases (step_change hstep).view with
  | quiet hquiet =>
      refine ⟨fun j addr pc hj => hcurrent j addr pc ((hquiet.conns j addr pc).mp hj), ?_⟩
      intro j addr route session hmem
      obtain ⟨metric, hmetric⟩ := hquiet.out _ hmem
      cases hmetric
  | enter he hi addr =>
      refine ⟨?_, by simp⟩
      intro j other pc hj
      rcases Tasks.getElem?_set_cases hj with ⟨-, heq⟩ | ⟨-, hj⟩
      · cases heq
        unfold route
        split <;> trivial
      · exact hcurrent j other pc hj
  | move he hi hmove =>
      have hpc := hcurrent _ _ _ hi
      refine ⟨?_, ?_⟩
      · intro j other pc hj
        rcases Tasks.getElem?_set_cases hj with ⟨-, heq⟩ | ⟨-, hj⟩
        · refine hmove.current hpc ?_ hhandshaken heq
          intro k third tunnel hmem
          have hpick := hmove.picks hi hmem
          exact hpicks _ tunnel (run_of_picks he hpick hstep) hpick
        · exact hcurrent j other pc hj
      · intro j other route session hmem hsession
        rw [hmove.routed hmem] at hpc
        exact hpc session hsession
  | driverExit hd => exact ⟨hcurrent, by simp⟩
  | driverEvict hd => exact ⟨hcurrent, by simp⟩

end Current

end OutboundProxy

/-! ## A sidecar with a clock -/

namespace Node

structure Clocked where
  state : State
  now : UnixTime

namespace Clocked

inductive Event where
  | node (event : Node.Event)
  | advance (now : UnixTime)

/-- What rustls guarantees: a full handshake accepts only a certificate that is valid. -/
def admits (validity : Der → Validity) (now : UnixTime) : Node.Event → Bool
  | .outbound (.handshaken _ (.ok handshake)) =>
      handshake.resumed ||
        match (handshake.session 0).leaf with
        | .ok leafDer => (validity leafDer).covers now
        | .error _ => true
  | _ => true

def step (node : Node) (validity : Der → Validity) :
    Step Clocked Event (UnixTime × Observation)
  | s, .node event =>
      if admits validity s.now event then
        (node.step s.state event).map fun (next, out) =>
          ({ s with state := next }, out.map fun observation => (s.now, observation))
      else none
  | s, .advance now => if s.now ≤ now then some ({ s with now := now }, []) else none

/--
A tunnel is taken from the pool only while its certificate has not expired, a resumed
handshake brings a certificate that has not expired, and the clock does not pass the
expiry of a certificate that a `route` call in progress relies on.
-/
def timely (validity : Der → Validity) (s : Clocked) : Event → Bool
  | .node (.outbound (.handshaken _ (.ok handshake))) =>
      !handshake.resumed || !(handshake.session 0).expired validity s.now
  | .node (.outbound (.run i)) =>
      (s.state.outbound.picks i).all fun tunnel => tunnel.session.unexpired validity s.now
  | .node _ => true
  | .advance now =>
      s.state.outbound.conns.all fun conn =>
        conn.session.all fun session => !session.expired validity now

/--
Every stream returned so far was returned in time, and so will be those of the calls
in progress if they return now.
-/
structure Safe (validity : Der → Validity) (trace : List (UnixTime × Observation))
    (s : Clocked) : Prop where
  routed : ∀ t i addr route session, (t, .outbound (.routed i addr route)) ∈ trace →
    route.session = some session → session.unexpired validity t = true
  current : ∀ (i : Nat) (addr : SocketAddr) (pc : OutboundProxy.Pc),
    s.state.outbound.conns[i]? = some (.routing addr pc) → pc.Current validity s.now

section Invariant

variable {node : Node} {validity : Der → Validity} {trace : List (UnixTime × Observation)}
  {s s' : Clocked} {out : List (UnixTime × Observation)}

theorem Safe.advance (h : Safe validity trace s) {now : UnixTime}
    (htimely : timely validity s (.advance now) = true) :
    Safe validity trace { s with now := now } where
  routed := h.routed
  current i addr pc hi := by
    refine (h.current i addr pc hi).advance ?_
    intro session hsession
    have hconn := List.all_eq_true.mp htimely _ (List.mem_of_getElem? hi)
    simpa [OutboundProxy.Conn.session, hsession] using hconn

theorem Safe.keep (h : Safe validity trace s) {state : State} {observed : List Observation}
    (hsame : state.outbound = s.state.outbound)
    (hout : outboundTrace observed = []) :
    Safe validity (trace ++ observed.map fun observation => (s.now, observation))
      { s with state := state } where
  routed t i addr route session hmem hsession := by
    rcases List.mem_append.mp hmem with hmem | hmem
    · exact h.routed t i addr route session hmem hsession
    · obtain ⟨observation, hobserved, heq⟩ := List.mem_map.mp hmem
      cases heq
      have hnone := List.filterMap_eq_nil_iff.mp hout _ hobserved
      cases hnone
  current i addr pc hi := by
    rw [hsame] at hi
    exact h.current i addr pc hi

theorem not_expired_of_admits {e : Node.Event} {i : Nat} {handshake : Handshake}
    (he : e = .outbound (.handshaken i (.ok handshake)))
    (hadmits : admits validity s.now e = true)
    (htimely : timely validity s (.node e) = true) :
    (handshake.session 0).expired validity s.now = false := by
  subst he
  cases hresumed : handshake.resumed with
  | true => simpa [timely, hresumed] using htimely
  | false =>
      simp only [admits, hresumed, Bool.false_or] at hadmits
      unfold TlsSession.expired
      cases hleaf : (handshake.session 0).leaf with
      | error error => rfl
      | ok leafDer =>
          simp only [hleaf, Validity.covers, Bool.and_eq_true, decide_eq_true_eq] at hadmits
          simpa using hadmits.2

theorem Safe.outbound (h : Safe validity trace s) {e : OutboundProxy.Event} {shared : Shared}
    {outbound : OutboundProxy.State} {observed : List OutboundProxy.Observation}
    (hadmits : admits validity s.now (.outbound e) = true)
    (htimely : timely validity s (.node (.outbound e)) = true)
    (hstep : node.outbound.step s.state.shared s.state.outbound e =
      some (shared, outbound, observed)) :
    Safe validity
      (trace ++ (observed.map Observation.outbound).map fun observation =>
        (s.now, observation))
      { s with state := { s.state with shared := shared, outbound := outbound } } := by
  have hpicks : ∀ j tunnel, e = .run j → s.state.outbound.picks j = some tunnel →
      tunnel.session.unexpired validity s.now = true := by
    intro j tunnel he hpick
    subst he
    simpa [timely, hpick] using htimely
  have hhandshake : ∀ j handshake, e = .handshaken j (.ok handshake) →
      (handshake.session s.state.outbound.sessions).expired validity s.now = false :=
    fun j handshake he => not_expired_of_admits (by rw [he]) hadmits htimely
  obtain ⟨hcurrent, hrouted⟩ :=
    OutboundProxy.current_step h.current hpicks hhandshake hstep
  refine ⟨?_, hcurrent⟩
  intro t i addr route session hmem hsession
  rcases List.mem_append.mp hmem with hmem | hmem
  · exact h.routed t i addr route session hmem hsession
  · obtain ⟨observation, hobservation, heq⟩ := List.mem_map.mp hmem
    obtain ⟨observation, hobserved, rfl⟩ := List.mem_map.mp hobservation
    cases heq
    exact hrouted i addr route session hobserved hsession

theorem Safe.step {event : Event} (h : Safe validity trace s)
    (htimely : timely validity s event = true)
    (hstep : step node validity s event = some (s', out)) : Safe validity (trace ++ out) s' := by
  cases event with
  | advance now =>
      simp only [Clocked.step] at hstep
      split at hstep
      next =>
        cases hstep
        rw [List.append_nil]
        exact h.advance htimely
      next => cases hstep
  | node event =>
      simp only [Clocked.step] at hstep
      split at hstep
      next hadmits =>
        obtain ⟨⟨next, observed⟩, hnode, heq⟩ := Option.map_eq_some_iff.mp hstep
        cases heq
        cases event with
        | outbound e =>
            obtain ⟨⟨shared, outbound, observed⟩, hout, heq⟩ :=
              Option.map_eq_some_iff.mp hnode
            cases heq
            exact h.outbound hadmits htimely hout
        | inbound e =>
            obtain ⟨⟨shared, inbound, observed⟩, hin, heq⟩ := Option.map_eq_some_iff.mp hnode
            cases heq
            exact h.keep rfl (outboundTrace_map_inbound observed)
        | policy call =>
            cases hnode
            exact h.keep rfl rfl
        | evictIdentity leafDer =>
            cases hnode
            exact h.keep rfl rfl
      next => cases hstep

theorem safe_initial (parse : X509Parser) (policy : PolicyEngine) (now : UnixTime) :
    Safe validity [] ⟨node.initial parse policy, now⟩ where
  routed := by simp
  current := by simp [Node.initial, OutboundProxy.initial]

end Invariant

/--
In a run whose steps are all timely, the certificate behind every stream that `route`
returns has not expired; if the authority issued it, its time to live has not passed.
-/
theorem routed_unexpired {node : Node} {validity : Der → Validity} {lib : CertificateLibrary}
    (hdated : lib.Dated validity) {parse : X509Parser} {policy : PolicyEngine}
    {start : UnixTime} {events : List Event} {s : Clocked}
    {trace : List (UnixTime × Observation)}
    (hexec : Step.exec (step node validity) ⟨node.initial parse policy, start⟩ events =
      some (s, trace))
    (htimely : Step.Always (step node validity) (fun s e => timely validity s e = true)
      ⟨node.initial parse policy, start⟩ events)
    {t : UnixTime} {i : Nat} {addr : SocketAddr} {route : OutboundProxy.Route}
    {session : TlsSession} (hmem : (t, .outbound (.routed i addr route)) ∈ trace)
    (hsession : route.session = some session) :
    ∃ leafDer, session.leaf = .ok leafDer ∧ t ≤ (validity leafDer).notAfter ∧
      ∀ ca draws, CertificateAuthority.Issued lib ca draws leafDer →
        t ≤ draws.now + leafTtl := by
  have hsafe : Safe validity trace s :=
    Step.invariant_of_always (fun h hC hstep => Safe.step h hC hstep)
      (safe_initial parse policy start) htimely hexec
  obtain ⟨leafDer, hleaf, hnotAfter⟩ :=
    TlsSession.unexpired_iff.mp (hsafe.routed t i addr route session hmem hsession)
  refine ⟨leafDer, hleaf, hnotAfter, ?_⟩
  intro ca draws hissued
  rw [← hissued.notAfter_eq hdated]
  exact hnotAfter

section Example

open Node.Example

private def mint : CertificateLibrary where
  paramsWithoutNames := .ok ()
  ia5Error := fun _ => []
  signedBy := fun params _ _ =>
    if params = leafParams [.uri workload.toUri] 0 [1] then .ok svid
    else .error "unsupported parameters".toList
  serializeDer := id

private def oneDay : Der → Validity := fun _ => ⟨0, leafTtl⟩

private theorem mint_dated : mint.Dated oneDay := by
  intro params leafKey ca cert hsigned
  simp only [mint] at hsigned
  split at hsigned
  next hparams => rw [hparams]; rfl
  next => cases hsigned

private def openTunnel : List OutboundProxy.Event :=
  [OutboundProxy.Event.accept none] ++ List.replicate 8 (OutboundProxy.Event.run 0) ++
    [OutboundProxy.Event.handshaken 0 muxHandshake] ++
    List.replicate 8 (OutboundProxy.Event.run 0) ++ [OutboundProxy.Event.opened 0 true] ++
    List.replicate 2 (OutboundProxy.Event.run 0)

private def reuseTunnel : List OutboundProxy.Event :=
  [OutboundProxy.Event.accept none] ++ List.replicate 7 (OutboundProxy.Event.run 1) ++
    [OutboundProxy.Event.opened 1 true, OutboundProxy.Event.run 1]

private def reuseAt (now : UnixTime) : List Event :=
  openTunnel.map (fun e => Event.node (.outbound e)) ++ [Event.advance now] ++
    reuseTunnel.map (fun e => Event.node (.outbound e))

private def pooled : Tunnel := ⟨0, workload, ⟨0, some [svid], some alpnMux⟩⟩

theorem reuseAt_hour_unexpired :
    ∃ last, Step.exec (step sidecar oneDay) ⟨sidecar.initial readSvid allowAny, 0⟩
        (reuseAt 3600) = some last ∧
      (3600, .outbound (.routed 1 application (.muxStream pooled))) ∈ last.2 ∧
      ∃ leafDer, pooled.session.leaf = .ok leafDer ∧ 3600 ≤ (oneDay leafDer).notAfter ∧
        ∀ ca draws, CertificateAuthority.Issued mint ca draws leafDer →
          3600 ≤ draws.now + leafTtl := by
  have hrouted : (Step.exec (step sidecar oneDay) ⟨sidecar.initial readSvid allowAny, 0⟩
      (reuseAt 3600)).any (fun last =>
        last.2.contains (3600, .outbound (.routed 1 application (.muxStream pooled)))) =
        true := by
    decide +kernel
  have htimely : Step.Always (step sidecar oneDay) (fun s e => timely oneDay s e = true)
      ⟨sidecar.initial readSvid allowAny, 0⟩ (reuseAt 3600) := by
    decide +kernel
  obtain ⟨last, hlast, hmem⟩ := (Option.any_eq_true _ _).mp hrouted
  have hmem := List.contains_iff_mem.mp hmem
  exact ⟨last, hlast, hmem, routed_unexpired mint_dated hlast htimely hmem rfl⟩

/-- A second after the certificate has expired the pool still hands out its tunnel. -/
theorem reuseAt_expired :
    ∃ last, Step.exec (step sidecar oneDay) ⟨sidecar.initial readSvid allowAny, 0⟩
        (reuseAt (leafTtl + 1)) = some last ∧
      (leafTtl + 1, .outbound (.routed 1 application (.muxStream pooled))) ∈ last.2 ∧
      pooled.session.leaf = .ok svid ∧ (oneDay svid).notAfter < leafTtl + 1 := by
  have hrouted : (Step.exec (step sidecar oneDay) ⟨sidecar.initial readSvid allowAny, 0⟩
      (reuseAt (leafTtl + 1))).any (fun last =>
        last.2.contains (leafTtl + 1, .outbound (.routed 1 application (.muxStream pooled)))) =
        true := by
    decide +kernel
  obtain ⟨last, hlast, hmem⟩ := (Option.any_eq_true _ _).mp hrouted
  exact ⟨last, hlast, List.contains_iff_mem.mp hmem, rfl, by decide⟩

end Example

end Clocked

end Node

end Interlink
