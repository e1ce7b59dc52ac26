import Interlink.Proxy.Authorization
import Interlink.Proxy.ByteCount
import Interlink.Proxy.InboundDraining

/-!
# The two ends of a TLS connection

What a sidecar does with the session that one of its relays is bound to.  A relay never
changes its session, what it writes to the session is what it has read on the other side,
and what it delivers on the other side is what it has read from the session, in order.
Between reading and delivering only the inbound one-to-one path holds bytes: those of its
detection read.
-/

namespace Interlink

open Interlink.Foundation

/-! ## The outbound proxy -/

namespace OutboundProxy

/-- From here on the connection uses no session but the given one. -/
def Pc.SettledOn (session : TlsSession) : Pc → Prop
  | .identifying _ own => own = session ∧ session.negotiatedMux = false
  | .caching _ _ tls | .evaluating (.stream _ tls) | .evaluatingGlobal (.stream _ tls) =>
      tls.session = session ∧ session.negotiatedMux = false
  | .unlocking next => next.SettledOn session
  | .returning route | .relaying route | .dropping route =>
      ∀ own, route.session = some own → own = session
  | _ => False

def Conn.SettledOn (session : TlsSession) : Conn → Prop
  | .routing _ pc => pc.SettledOn session
  | .leaving | .releasing | .finished => True
  | .accepted _ | .spawned _ | .resolving _ => False

def Conn.began : Conn → Prop
  | .routing _ (.relaying _) | .routing _ (.dropping _) | .leaving | .releasing
  | .finished => True
  | _ => False

variable {proxy : OutboundProxy} {shared shared' : Shared} {s s' : State} {i : Nat}
  {addr : SocketAddr} {pc : Pc} {effect : Effect} {conn : Conn} {e : Event}
  {out : List Observation} {session : TlsSession}

theorem settledOn_leave {locked : Bool} :
    (leave locked pc).SettledOn session ↔ pc.SettledOn session := by
  cases locked <;> rfl

theorem settledOn_decided {locked : Bool} {tls : TlsStream} (htls : tls.session = session)
    (hmux : session.negotiatedMux = false) (decision : Decision) :
    (decided (.stream locked tls) decision).SettledOn session := by
  cases decision with
  | allow =>
      rw [decided, if_neg (by simp [htls, hmux])]
      refine settledOn_leave.mpr fun own hown => ?_
      cases hown
      exact htls
  | deny reason =>
      refine settledOn_leave.mpr fun own hown => ?_
      cases hown

theorem Move.settledOn (h : Move proxy shared s i addr pc effect conn out)
    (hpc : pc.SettledOn session) : conn.SettledOn session := by
  cases h
  case identify | parse | cache => exact hpc
  case identifyError => exact settledOn_leave.mpr nofun
  case scan subject _ =>
    cases subject with
    | tunnel => exact hpc
    | stream => exact hpc
  case decideNamespace subject decision _ =>
    cases subject with
    | tunnel => exact absurd hpc id
    | stream locked tls => exact settledOn_decided hpc.1 hpc.2 decision
  case decideGlobal subject decision _ =>
    cases subject with
    | tunnel => exact absurd hpc id
    | stream locked tls => exact settledOn_decided hpc.1 hpc.2 decision
  case unlock => exact hpc
  case returnMux | returnLegacy | relay | relayEnd => exact hpc
  case returnDenied | returnFailed | dropMux | dropOther => trivial
  all_goals exact absurd hpc id

theorem Move.began (h : Move proxy shared s i addr pc effect conn out)
    (hpc : (Conn.routing addr pc).began) : conn.began := by
  cases h
  case relay | relayEnd | dropMux | dropOther => trivial
  all_goals exact absurd hpc id

theorem Change.keeps {P : Conn → Prop} (h : Change proxy shared s e shared' s' out)
    (hearly : ∀ target, ¬ P (.accepted target) ∧ ¬ P (.spawned target) ∧ ¬ P (.resolving target))
    (hmove : ∀ {addr pc effect conn out}, Move proxy shared s i addr pc effect conn out →
      P (.routing addr pc) → P conn)
    (hlate : P .releasing ∧ P .finished) (hi : s.conns[i]? = some conn) (hP : P conn) :
    ∃ next, s'.conns[i]? = some next ∧ P next := by
  have hset : ∀ {j : Nat} {old new : Conn}, s.conns[j]? = some old → (j = i → P old → P new) →
      ∃ next, (s.conns.set j new)[i]? = some next ∧ P next := by
    intro j old new hj hnew
    by_cases hij : j = i
    · subst hij
      cases hi.symm.trans hj
      exact ⟨new, Tasks.getElem?_set_of hi _, hnew rfl hP⟩
    · exact ⟨conn, (List.getElem?_set_ne hij).trans hi, hP⟩
  cases h with
  | refuse | saturate => exact ⟨conn, hi, hP⟩
  | accept => exact ⟨conn, Tasks.getElem?_append_of hi _, hP⟩
  | start hj => exact hset hj fun _ hold => absurd hold (hearly _).1
  | begin hj => exact hset hj fun _ hold => absurd hold (hearly _).2.1
  | enter _ hj => exact hset hj fun _ hold => absurd hold (hearly _).2.2
  | unresolved _ hj => exact hset hj fun _ hold => absurd hold (hearly _).2.2
  | move _ hj hmoves =>
      refine hset hj fun hij => ?_
      subst hij
      exact hmove hmoves
  | leave hj => exact hset hj fun _ _ => hlate.1
  | release hj => exact hset hj fun _ _ => hlate.2
  | driverExit | driverEvict => exact ⟨conn, hi, hP⟩

theorem Change.settledOn (h : Change proxy shared s e shared' s' out)
    (hi : s.conns[i]? = some conn) (hconn : conn.SettledOn session) :
    ∃ next, s'.conns[i]? = some next ∧ next.SettledOn session :=
  h.keeps (fun _ => ⟨id, id, id⟩) Move.settledOn ⟨trivial, trivial⟩ hi hconn

theorem Change.began (h : Change proxy shared s e shared' s' out)
    (hi : s.conns[i]? = some conn) (hconn : conn.began) :
    ∃ next, s'.conns[i]? = some next ∧ next.began :=
  h.keeps (fun _ => ⟨id, id, id⟩) Move.began ⟨trivial, trivial⟩ hi hconn

theorem Change.of_relayed (h : Change proxy shared s e shared' s' out) {route : Route}
    {direction : Direction} {data : List UInt8}
    (hmem : .relayed i route direction data ∈ out) :
    ∃ addr, s.conns[i]? = some (.routing addr (.relaying route)) ∧
      s'.conns[i]? = some (.routing addr (.relaying route)) := by
  cases h with
  | @move _ _ addr _ _ _ _ _ hi hmove =>
      cases hmove <;> simp at hmem
      case relay =>
        obtain ⟨rfl, rfl, -, -⟩ := hmem
        exact ⟨addr, hi, Tasks.getElem?_set_of hi _⟩
  | _ => simp at hmem

/--
A handshake that succeeds binds the connection to its session, unless streams are to be
multiplexed over it.
-/
theorem step_handshaken {handshake : Handshake}
    (h : proxy.step shared s (.handshaken i (.ok handshake)) = some (shared', s', out)) :
    ∃ addr locked, s'.conns[i]? =
      some (.routing addr (.identifying locked (handshake.session s.sessions))) := by
  obtain ⟨conn, hi, hrespond⟩ := Option.bind_eq_some_iff.mp h
  cases conn with
  | routing addr pc =>
      cases pc with
      | connecting locked =>
          cases hrespond
          exact ⟨addr, locked, Tasks.getElem?_set_of hi _⟩
      | _ => cases hrespond
  | _ => cases hrespond

theorem step_opened {origin : Origin} {tunnel : Tunnel}
    (hi : s.conns[i]? = some (.routing addr (.opening origin tunnel)))
    (h : proxy.step shared s (.opened i true) = some (shared', s', out)) :
    ∃ next, s'.conns[i]? = some next ∧ next.SettledOn tunnel.session ∧ ¬ next.began := by
  have hroute : (Pc.returning (.muxStream tunnel)).SettledOn tunnel.session := by
    intro own hown
    cases hown
    rfl
  simp only [step, hi, Option.bind_some, respond, performed, opened, if_true] at h
  cases origin with
  | pooled attempts =>
      cases h
      exact ⟨_, Tasks.getElem?_set_of hi _, hroute, id⟩
  | fresh locked =>
      cases h
      refine ⟨_, Tasks.getElem?_set_of hi _, settledOn_leave.mpr hroute, ?_⟩
      cases locked <;> exact id

end OutboundProxy

/-! ## The inbound proxy -/

namespace TcpProxy

/-- The connection has made its handshake, and it was the one of the given session. -/
def Pc.SettledOn (session : TlsSession) : Pc → Prop
  | .joining .handshaking _ => False
  | .joining (.identifying own) _ => own = session
  | .joining (.done none) _ => True
  | .joining (.caching _ tls) _ | .joining (.done (some tls)) _ | .evaluating tls
  | .evaluatingGlobal tls | .serving tls | .detecting tls | .forwarding tls _
  | .relaying tls => tls.session = session

def Conn.SettledOn (session : TlsSession) : Conn → Prop
  | .handling _ pc => pc.SettledOn session
  | .leaving | .releasing | .finished => True
  | .accepted _ | .spawned _ | .resolving _ => False

def Conn.began : Conn → Prop
  | .handling _ (.relaying _) | .leaving | .releasing | .finished => True
  | _ => False

/-- Bytes that the connection has read from its session and not yet delivered. -/
def Conn.held : Conn → List UInt8
  | .handling _ (.forwarding _ data) => data
  | _ => []

def Conn.IsOver : Conn → Prop
  | .leaving | .releasing | .finished => True
  | _ => False

variable {proxy : TcpProxy} {shared shared' : Shared} {s s' : State} {i k : Nat}
  {addr : SocketAddr} {pc : Pc} {effect : Effect} {conn : Conn} {e : Event}
  {out : List Observation} {session : TlsSession}

theorem settledOn_decided {tls : TlsStream} (htls : tls.session = session)
    (decision : Decision) : (decided addr tls decision).1.SettledOn session := by
  cases decision with
  | allow =>
      simp only [decided]
      split <;> exact htls
  | deny reason => trivial

theorem Move.settledOn (h : Move proxy shared s i addr pc effect conn out)
    (hpc : pc.SettledOn session) : conn.SettledOn session := by
  cases h with
  | handshake | handshakeError => exact absurd hpc id
  | @dial accepting ok =>
      cases accepting with
      | done tls => cases tls <;> exact hpc
      | _ => exact hpc
  | decideNamespace | decideGlobal => exact settledOn_decided hpc _
  | identifyError | acceptFailed | dialFailed | readError | writeError | relayEnd
  | closeTunnel => trivial
  | _ => exact hpc

theorem Move.began (h : Move proxy shared s i addr pc effect conn out)
    (hpc : (Conn.handling addr pc).began) : conn.began := by
  cases h with
  | relay | relayEnd => trivial
  | _ => exact absurd hpc id

theorem Change.keeps {P : Conn → Prop} (h : Change proxy shared s e shared' s' out)
    (hearly : ∀ target, ¬ P (.accepted target) ∧ ¬ P (.spawned target) ∧ ¬ P (.resolving target))
    (hmove : ∀ {addr pc effect conn out}, Move proxy shared s i addr pc effect conn out →
      P (.handling addr pc) → P conn)
    (hlate : P .releasing ∧ P .finished) (hi : s.conns[i]? = some conn) (hP : P conn) :
    ∃ next, s'.conns[i]? = some next ∧ P next := by
  have hset : ∀ {j : Nat} {old new : Conn}, s.conns[j]? = some old → (j = i → P old → P new) →
      ∃ next, (s.conns.set j new)[i]? = some next ∧ P next := by
    intro j old new hj hnew
    by_cases hij : j = i
    · subst hij
      cases hi.symm.trans hj
      exact ⟨new, Tasks.getElem?_set_of hi _, hnew rfl hP⟩
    · exact ⟨conn, (List.getElem?_set_ne hij).trans hi, hP⟩
  cases h with
  | accept => exact ⟨conn, Tasks.getElem?_append_of hi _, hP⟩
  | start hj => exact hset hj fun _ hold => absurd hold (hearly _).1
  | begin hj => exact hset hj fun _ hold => absurd hold (hearly _).2.1
  | enter hj => exact hset hj fun _ hold => absurd hold (hearly _).2.2
  | unresolved hj => exact hset hj fun _ hold => absurd hold (hearly _).2.2
  | move hj hmoves =>
      refine hset hj fun hij => ?_
      subst hij
      exact hmove hmoves
  | leave hj => exact hset hj fun _ _ => hlate.1
  | release hj => exact hset hj fun _ _ => hlate.2
  | _ => exact ⟨conn, hi, hP⟩

theorem Change.settledOn (h : Change proxy shared s e shared' s' out)
    (hi : s.conns[i]? = some conn) (hconn : conn.SettledOn session) :
    ∃ next, s'.conns[i]? = some next ∧ next.SettledOn session :=
  h.keeps (fun _ => ⟨id, id, id⟩) Move.settledOn ⟨trivial, trivial⟩ hi hconn

theorem Change.began (h : Change proxy shared s e shared' s' out)
    (hi : s.conns[i]? = some conn) (hconn : conn.began) :
    ∃ next, s'.conns[i]? = some next ∧ next.began :=
  h.keeps (fun _ => ⟨id, id, id⟩) Move.began ⟨trivial, trivial⟩ hi hconn

theorem Change.isOver (h : Change proxy shared s e shared' s' out)
    (hi : s.conns[i]? = some conn) (hconn : conn.IsOver) :
    ∃ next, s'.conns[i]? = some next ∧ next.IsOver :=
  h.keeps (fun _ => ⟨id, id, id⟩) (fun _ hover => absurd hover id) ⟨trivial, trivial⟩ hi hconn

theorem Change.stream (h : Change proxy shared s e shared' s' out) {stream : Stream}
    (hk : s.streams[k]? = some stream) :
    ∃ next, s'.streams[k]? = some next ∧ next.tls = stream.tls := by
  have hset : ∀ {j : Nat} {old : Stream} (pc : StreamPc), s.streams[j]? = some old →
      ∃ next, (s.streams.set j { old with pc := pc })[k]? = some next ∧
        next.tls = stream.tls := by
    intro j old pc hj
    by_cases hjk : j = k
    · subst hjk
      cases hk.symm.trans hj
      exact ⟨_, Tasks.getElem?_set_of hk _, rfl⟩
    · exact ⟨stream, (List.getElem?_set_ne hjk).trans hk, rfl⟩
  cases h with
  | @move _ _ _ _ effect =>
      cases effect with
      | spawn tls => exact ⟨stream, Tasks.getElem?_append_of hk _, rfl⟩
      | _ => exact ⟨stream, hk, rfl⟩
  | streamStart hj => exact hset _ hj
  | streamDial hj => exact hset _ hj
  | streamDialError hj => exact hset _ hj
  | streamEnd hj => exact hset _ hj
  | _ => exact ⟨stream, hk, rfl⟩

theorem Move.of_relayed (h : Move proxy shared s i addr pc effect conn out) {j : Nat}
    {stream : Option Nat} {tls : TlsStream} {direction : Direction} {data : List UInt8}
    (hmem : .relayed j stream tls direction data ∈ out) :
    j = i ∧ stream = none ∧ conn.began ∧
      ∀ session, pc.SettledOn session → tls.session = session := by
  rcases h.settled with hpc | hsettled
  · cases h with
    | write | writeError | relay =>
        simp only [List.mem_cons, Observation.relayed.injEq, reduceCtorEq, or_false,
          List.not_mem_nil] at hmem
        obtain ⟨rfl, rfl, rfl, -, -⟩ := hmem
        exact ⟨rfl, rfl, trivial, fun _ hpc => hpc⟩
    | read | readError | relayEnd => simp at hmem
    | _ => cases hpc
  · cases hsettled.2 _ hmem

theorem Change.of_relayed (h : Change proxy shared s e shared' s' out) {tls : TlsStream}
    {direction : Direction} {data : List UInt8}
    (hmem : .relayed i none tls direction data ∈ out) :
    (∃ addr pc, s.conns[i]? = some (.handling addr pc) ∧
      ∀ session, pc.SettledOn session → tls.session = session) ∧
      ∃ next, s'.conns[i]? = some next ∧ next.began := by
  cases h with
  | @move _ _ addr pc _ _ _ hi hmove =>
      obtain ⟨rfl, -, hbegan, hsession⟩ := hmove.of_relayed hmem
      exact ⟨⟨addr, pc, hi, hsession⟩, _, Tasks.getElem?_set_of hi _, hbegan⟩
  | _ => simp at hmem

theorem Change.of_streamRelayed (h : Change proxy shared s e shared' s' out) {j : Nat}
    {tls : TlsStream} {direction : Direction} {data : List UInt8}
    (hmem : .relayed j (some k) tls direction data ∈ out) :
    ∃ stream, s.streams[k]? = some stream ∧ stream.tls = tls := by
  cases h with
  | move hi hmove => cases (hmove.of_relayed hmem).2.1
  | @streamRelay _ stream hk =>
      simp only [List.mem_singleton, Observation.relayed.injEq, Option.some.injEq] at hmem
      obtain ⟨-, rfl, rfl, -, -⟩ := hmem
      exact ⟨stream, hk, rfl⟩
  | _ => simp at hmem

theorem step_handshaken {handshake : Handshake}
    (h : proxy.step shared s (.handshaken i (.ok handshake)) = some (shared', s', out)) :
    ∃ addr dialed, s'.conns[i]? =
      some (.handling addr (.joining (.identifying (handshake.session s.sessions)) dialed)) := by
  obtain ⟨conn, hi, hrespond⟩ := Option.bind_eq_some_iff.mp h
  cases conn with
  | handling addr pc =>
      cases pc with
      | joining accepting dialed =>
          cases accepting with
          | handshaking =>
              cases hrespond
              exact ⟨addr, dialed, Tasks.getElem?_set_of hi _⟩
          | _ => cases hrespond
      | _ => cases hrespond
  | _ => cases hrespond

theorem step_acceptStream {tls : TlsStream}
    (hi : s.conns[i]? = some (.handling addr (.serving tls)))
    (h : proxy.step shared s (.acceptStream i) = some (shared', s', out)) :
    s'.streams = s.streams ++ [⟨i, tls, addr, .spawned⟩] ∧
      out = [.streamAccepted i s.streams.length tls, .metric .muxStream] := by
  simp only [step, hi, Option.bind_some] at h
  cases h
  exact ⟨rfl, rfl⟩

/-! ### Bytes in and out -/

def Event.taken (i : Nat) : Event → List UInt8
  | .read j (some data) => if j = i then data else []
  | .relay j .toUpstream data => if j = i then data else []
  | _ => []

def Observation.delivered (i : Nat) : Observation → List UInt8
  | .relayed j none _ .toUpstream data => if j = i then data else []
  | _ => []

def delivered (i : Nat) (trace : List Observation) : List UInt8 :=
  trace.flatMap (Observation.delivered i)

theorem delivered_of_quiet (h : ∀ o ∈ out, o.isRelayed = false) : delivered i out = [] := by
  refine List.flatMap_eq_nil_iff.mpr fun o hmem => ?_
  have hquiet := h o hmem
  cases o with
  | relayed => cases hquiet
  | _ => rfl

private theorem held_of_not_relays (h : conn.relays = false) : conn.held = [] := by
  cases conn with
  | handling addr pc =>
      cases pc with
      | forwarding => cases h
      | _ => rfl
  | _ => rfl

private theorem flow_of_other (h : proxy.step shared s e = some (shared', s', out))
    (he : e.advances ≠ some i) (hi : s.conns[i]? = some conn) :
    conn.held ++ e.taken i = delivered i out ++ conn.held := by
  cases step_transfer h with
  | @read _ j =>
      have hj : j ≠ i := by
        rintro rfl
        exact he rfl
      simp [Event.taken, hj, delivered]
  | @write _ j =>
      have hj : j ≠ i := by
        rintro rfl
        exact he rfl
      simp [Event.taken, hj, delivered, Observation.delivered]
  | @writeError _ j =>
      have hj : j ≠ i := by
        rintro rfl
        exact he rfl
      simp [Event.taken, hj, delivered, Observation.delivered]
  | @relay _ j addr tls direction data hj =>
      by_cases hij : j = i
      · subst hij
        cases hi.symm.trans hj
        cases direction <;> simp [Event.taken, delivered, Observation.delivered, Conn.held]
      · cases direction <;> simp [Event.taken, hij, delivered, Observation.delivered]
  | streamRelay => simp [Event.taken, delivered, Observation.delivered]
  | still hrelay _ hstill =>
      have htaken : e.taken i = [] := by
        cases e with
        | relay j direction data => exact absurd rfl (hrelay j direction data)
        | read j data =>
            have hj : j ≠ i := by
              rintro rfl
              exact he rfl
            cases data <;> simp [Event.taken, hj]
        | _ => rfl
      simp [htaken, delivered_of_quiet hstill.quiet]

/-- A connection that holds bytes moves only by writing them. -/
private theorem held_eq_nil (h : proxy.step shared s e = some (shared', s', out))
    (he : e.advances = some i) (hwritten : ∀ delivered ok, e ≠ .written i delivered ok)
    (hi : s.conns[i]? = some conn) : conn.held = [] := by
  cases conn with
  | handling addr pc =>
      cases pc with
      | forwarding tls data =>
          cases e <;> simp only [Event.advances, Option.some.injEq, reduceCtorEq] at he
          all_goals subst he
          case written delivered ok => exact absurd rfl (hwritten delivered ok)
          case read data =>
            simp only [step, hi, Option.bind_some, respond, performed] at h
            cases data with
            | none => cases h
            | some data => cases data <;> cases h
          all_goals simp [step, hi, runConn, performed, advance, discover, respond, handshaken,
            dialed, relayEnd, closeTunnel] at h
      | _ => rfl
  | _ => rfl

private theorem flow_of_still (hstill : Still s s' out) {next : Conn}
    (hnext : s'.conns[i]? = some next) (hi : s.conns[i]? = some conn) (hheld : conn.held = [])
    (htaken : e.taken i = []) : conn.held ++ e.taken i = delivered i out ++ next.held := by
  rw [hheld, htaken, delivered_of_quiet hstill.quiet]
  cases hrelays : next.relays with
  | true =>
      have hold := hstill.kept i next hnext hrelays
      cases hi.symm.trans hold
      rw [hheld]
  | false => rw [held_of_not_relays hrelays]

private theorem flow_of_read {data : Option (List UInt8)}
    (h : proxy.step shared s (.read i data) = some (shared', s', out))
    (hi : s.conns[i]? = some conn) {next : Conn} (hnext : s'.conns[i]? = some next) :
    conn.held ++ (Event.read i data).taken i = delivered i out ++ next.held := by
  have hheld := held_eq_nil h rfl nofun hi
  cases data with
  | none =>
      cases step_transfer h with
      | still _ _ hstill => exact flow_of_still hstill hnext hi hheld rfl
  | some data =>
      cases conn with
      | handling addr pc =>
          simp only [step, hi, Option.bind_some, respond, performed] at h
          cases pc with
          | detecting tls =>
              cases data <;> cases h
              all_goals
                cases (Tasks.getElem?_set_of hi _).symm.trans hnext
                simp [Event.taken, delivered, Observation.delivered, Conn.held]
          | _ => cases data <;> cases h
      | _ => simp [step, hi, respond] at h

private theorem flow_of_written {count : Nat} {ok : Bool}
    (h : proxy.step shared s (.written i count ok) = some (shared', s', out))
    (hi : s.conns[i]? = some conn) {next : Conn} (hnext : s'.conns[i]? = some next) :
    conn.held = delivered i out ++ next.held ∨ next.IsOver ∧ delivered i out <+: conn.held := by
  cases conn with
  | handling addr pc =>
      simp only [step, hi, Option.bind_some, respond, performed] at h
      cases pc with
      | forwarding tls data =>
          cases ok with
          | true =>
              cases h
              cases (Tasks.getElem?_set_of hi _).symm.trans hnext
              exact .inl (by simp [delivered, Observation.delivered, Conn.held])
          | false =>
              cases h
              cases (Tasks.getElem?_set_of hi _).symm.trans hnext
              refine .inr ⟨trivial, ?_⟩
              simp [delivered, Observation.delivered, Conn.held, List.take_prefix]
      | _ => cases h
  | _ => simp [step, hi, respond] at h

/--
What a connection held and takes from its session it delivers or holds, in order; only a
connection that is over may have lost bytes.
-/
theorem step_flow (h : proxy.step shared s e = some (shared', s', out))
    (hi : s.conns[i]? = some conn) :
    ∃ next, s'.conns[i]? = some next ∧
      (conn.held ++ e.taken i = delivered i out ++ next.held ∨
        next.IsOver ∧ delivered i out <+: conn.held ++ e.taken i) := by
  by_cases he : e.advances = some i
  · obtain ⟨next, hnext⟩ := (step_turns h).conns.exists_getElem? hi
    refine ⟨next, hnext, ?_⟩
    cases e <;> simp only [Event.advances, Option.some.injEq, reduceCtorEq] at he
    all_goals subst he
    case read data => exact .inl (flow_of_read h hi hnext)
    case written count ok => simpa [Event.taken] using flow_of_written h hi hnext
    all_goals
      cases step_transfer h with
      | still _ _ hstill =>
          exact .inl (flow_of_still hstill hnext hi (held_eq_nil h rfl nofun hi) rfl)
  · have hnext := (step_turns h).conns.getElem?_of_ne he hi
    exact ⟨conn, hnext, .inl (flow_of_other h he hi)⟩

end TcpProxy

/-! ## The sidecar -/

namespace Node

def Relay.incoming : Relay → Direction
  | .outbound _ => .toClient
  | .inbound _ | .stream _ => .toUpstream

def Relay.outgoing : Relay → Direction
  | .outbound _ => .toUpstream
  | .inbound _ | .stream _ => .toClient

def Observation.relay? : Observation → Option Relay
  | .outbound (.relayed i _ _ _) => some (.outbound i)
  | .inbound (.relayed i none _ _ _) => some (.inbound i)
  | .inbound (.relayed _ (some k) _ _ _) => some (.stream k)
  | _ => none

def Observation.session? : Observation → Option TlsSession
  | .outbound (.relayed _ route _ _) => route.session
  | .inbound (.relayed _ _ tls _ _) => some tls.session
  | _ => none

def Observation.towards? : Observation → Option (Direction × List UInt8)
  | .outbound (.relayed _ _ direction data) => some (direction, data)
  | .inbound (.relayed _ _ _ direction data) => some (direction, data)
  | _ => none

/-- The bytes that an observation moves for a relay in a direction. -/
def Observation.payload (relay : Relay) (direction : Direction) (o : Observation) :
    List UInt8 :=
  match o.towards? with
  | some (towards, data) => if o.relay? = some relay ∧ towards = direction then data else []
  | none => []

def payload (relay : Relay) (direction : Direction) (trace : List Observation) : List UInt8 :=
  trace.flatMap (Observation.payload relay direction)

def Event.taken : Relay → Event → List UInt8
  | .outbound i, .outbound (.relay j .toClient data) => if j = i then data else []
  | .inbound i, .inbound event => event.taken i
  | .stream k, .inbound (.streamRelay j .toUpstream data) => if j = k then data else []
  | _, _ => []

def Event.given : Relay → Event → List UInt8
  | .outbound i, .outbound (.relay j .toUpstream data) => if j = i then data else []
  | .inbound i, .inbound (.relay j .toClient data) => if j = i then data else []
  | .stream k, .inbound (.streamRelay j .toClient data) => if j = k then data else []
  | _, _ => []

def State.On (s : State) (session : TlsSession) : Relay → Prop
  | .outbound i => ∃ conn, s.outbound.conns[i]? = some conn ∧ conn.SettledOn session
  | .inbound i => ∃ conn, s.inbound.conns[i]? = some conn ∧ conn.SettledOn session
  | .stream k => ∃ stream, s.inbound.streams[k]? = some stream ∧ stream.tls.session = session

def State.held (s : State) : Relay → List UInt8
  | .inbound i => (s.inbound.conns[i]?.map TcpProxy.Conn.held).getD []
  | _ => []

def State.Over (s : State) : Relay → Prop
  | .inbound i => ∃ conn, s.inbound.conns[i]? = some conn ∧ conn.IsOver
  | _ => False

def State.Began (s : State) : Relay → Prop
  | .outbound i => ∃ conn, s.outbound.conns[i]? = some conn ∧ conn.began
  | .inbound i => ∃ conn, s.inbound.conns[i]? = some conn ∧ conn.began
  | .stream k => k < s.inbound.streams.length

/--
What a step does at the end of a connection that a relay is, by the bytes that it writes
to the session and takes from it.
-/
structure Passes (relay : Relay) (s : State) (given taken : List UInt8) (s' : State)
    (out : List Observation) : Prop where
  on : ∀ session, s.On session relay → s'.On session relay
  began : s.Began relay → s'.Began relay
  ended : s.Over relay → s'.Over relay ∧ payload relay relay.incoming out = []
  writes : payload relay relay.outgoing out = given
  hands : ∀ session, s.On session relay →
    s.held relay ++ taken = payload relay relay.incoming out ++ s'.held relay ∨
      s'.Over relay ∧ payload relay relay.incoming out <+: s.held relay ++ taken
  relayed : ∀ o ∈ out, o.relay? = some relay → s'.Began relay ∧
    ∀ session, s.On session relay → ∀ own, o.session? = some own → own = session

variable {node : Node} {s s' : State} {e : Event} {i k : Nat} {relay : Relay}
  {direction : Direction} {trace out : List Observation}

theorem step_outbound {event : OutboundProxy.Event}
    (h : node.step s (.outbound event) = some (s', out)) :
    ∃ observed, node.outbound.step s.shared s.outbound event =
        some (s'.shared, s'.outbound, observed) ∧ out = observed.map .outbound := by
  obtain ⟨⟨shared, outbound, observed⟩, hstep, heq⟩ := Option.map_eq_some_iff.mp h
  cases heq
  exact ⟨observed, hstep, rfl⟩

theorem step_inbound {event : TcpProxy.Event}
    (h : node.step s (.inbound event) = some (s', out)) :
    ∃ observed, node.inbound.step s.shared s.inbound event =
        some (s'.shared, s'.inbound, observed) ∧ out = observed.map .inbound := by
  obtain ⟨⟨shared, inbound, observed⟩, hstep, heq⟩ := Option.map_eq_some_iff.mp h
  cases heq
  exact ⟨observed, hstep, rfl⟩

theorem payload_append (relay : Relay) (direction : Direction) (l r : List Observation) :
    payload relay direction (l ++ r) = payload relay direction l ++ payload relay direction r :=
  List.flatMap_append

theorem payload_eq_nil (h : ∀ o ∈ out, o.relay? ≠ some relay) :
    payload relay direction out = [] := by
  refine List.flatMap_eq_nil_iff.mpr fun o hmem => ?_
  unfold Observation.payload
  split
  next => rw [if_neg fun hand => h o hmem hand.1]
  next => rfl

theorem exists_of_payload_ne_nil (h : payload relay direction trace ≠ []) :
    ∃ o ∈ trace, o.relay? = some relay := by
  by_contra hnone
  refine h (payload_eq_nil fun o hmem hrelay => hnone ⟨o, hmem, hrelay⟩)

theorem Passes.of_eq (hon : ∀ session, s'.On session relay ↔ s.On session relay)
    (hheld : s'.held relay = s.held relay) (hover : s'.Over relay ↔ s.Over relay)
    (hbegan : s'.Began relay ↔ s.Began relay)
    (hout : ∀ o ∈ out, o.relay? ≠ some relay) : Passes relay s [] [] s' out where
  on session := (hon session).mpr
  began := hbegan.mpr
  ended h := ⟨hover.mpr h, payload_eq_nil hout⟩
  writes := payload_eq_nil hout
  hands session _ := .inl (by rw [payload_eq_nil hout, hheld, List.append_nil, List.nil_append])
  relayed o hmem hrelay := absurd hrelay (hout o hmem)

private theorem outbound_given_taken {proxy : OutboundProxy} {shared shared' : Shared}
    {t t' : OutboundProxy.State} {event : OutboundProxy.Event}
    {observed : List OutboundProxy.Observation}
    (h : proxy.step shared t event = some (shared', t', observed)) (i : Nat) :
    payload (.outbound i) .toUpstream (observed.map .outbound) =
        (Event.outbound event).given (.outbound i) ∧
      payload (.outbound i) .toClient (observed.map .outbound) =
        (Event.outbound event).taken (.outbound i) := by
  rcases OutboundProxy.step_relayed h with ⟨j, route, direction, data, rfl, rfl⟩ | ⟨hevent, hquiet⟩
  · cases direction <;> simp [payload, Observation.payload, Observation.towards?,
      Observation.relay?, Event.given, Event.taken]
  · have hnone : ∀ o ∈ observed.map Observation.outbound, o.relay? ≠ some (.outbound i) := by
      intro o hmem
      obtain ⟨o, ho, rfl⟩ := List.mem_map.mp hmem
      have hrelayed := hquiet o ho
      cases o with
      | relayed => cases hrelayed
      | _ => nofun
    rw [payload_eq_nil hnone, payload_eq_nil hnone]
    cases event with
    | relay j direction data => exact absurd rfl (hevent j direction data)
    | _ => exact ⟨rfl, rfl⟩

theorem outbound_passes (h : node.step s e = some (s', out)) (i : Nat) :
    Passes (.outbound i) s (e.given (.outbound i)) (e.taken (.outbound i)) s' out := by
  cases e with
  | outbound event =>
      obtain ⟨⟨shared, outbound, observed⟩, hstep, heq⟩ := Option.map_eq_some_iff.mp h
      cases heq
      have hchange := OutboundProxy.step_change hstep
      obtain ⟨hgiven, htaken⟩ := outbound_given_taken hstep i
      refine ⟨?_, ?_, nofun, hgiven, fun _ _ => .inl ?_, ?_⟩
      · rintro session ⟨conn, hi, hconn⟩
        exact hchange.settledOn hi hconn
      · rintro ⟨conn, hi, hconn⟩
        exact hchange.began hi hconn
      · rw [Relay.incoming, htaken]
        simp [State.held]
      · intro o hmem hrelay
        obtain ⟨o, ho, rfl⟩ := List.mem_map.mp hmem
        cases o with
        | relayed j route direction data =>
            obtain rfl : j = i := by simpa [Observation.relay?] using hrelay
            obtain ⟨addr, hi, hi'⟩ := hchange.of_relayed ho
            refine ⟨⟨_, hi', trivial⟩, ?_⟩
            rintro session ⟨conn, hconn, hsettled⟩ own hown
            cases hi.symm.trans hconn
            exact hsettled own hown
        | _ => cases hrelay
  | inbound event =>
      obtain ⟨⟨shared, inbound, observed⟩, hstep, heq⟩ := Option.map_eq_some_iff.mp h
      cases heq
      refine .of_eq (fun _ => .rfl) rfl .rfl .rfl ?_
      intro o hmem
      obtain ⟨o, -, rfl⟩ := List.mem_map.mp hmem
      cases o with
      | relayed j stream => cases stream <;> nofun
      | _ => nofun
  | policy call =>
      cases h
      exact .of_eq (fun _ => .rfl) rfl .rfl .rfl (by simp)
  | evictIdentity leafDer =>
      cases h
      exact .of_eq (fun _ => .rfl) rfl .rfl .rfl (by simp)

section Inbound

variable {proxy : TcpProxy} {shared shared' : Shared} {t t' : TcpProxy.State}
  {event : TcpProxy.Event} {observed : List TcpProxy.Observation}

private theorem relay?_ne_of_quiet {o : TcpProxy.Observation} (h : o.isRelayed = false) :
    (Observation.inbound o).relay? = none := by
  cases o with
  | relayed => cases h
  | _ => rfl

private theorem payload_of_quiet (h : ∀ o ∈ observed, o.isRelayed = false) :
    payload relay direction (observed.map .inbound) = [] := by
  refine payload_eq_nil fun o hmem => ?_
  obtain ⟨o, ho, rfl⟩ := List.mem_map.mp hmem
  rw [relay?_ne_of_quiet (h o ho)]
  nofun

private theorem payload_inbound_toUpstream (i : Nat) (observed : List TcpProxy.Observation) :
    payload (.inbound i) .toUpstream (observed.map .inbound) =
      TcpProxy.delivered i observed := by
  rw [payload, TcpProxy.delivered, List.flatMap_map]
  refine List.flatMap_congr fun o _ => ?_
  cases o with
  | relayed j stream tls direction data =>
      cases stream <;> cases direction <;>
        simp [Observation.payload, Observation.towards?, Observation.relay?,
          TcpProxy.Observation.delivered]
  | _ => rfl

private theorem inbound_given (h : proxy.step shared t event = some (shared', t', observed))
    (i : Nat) :
    payload (.inbound i) .toClient (observed.map .inbound) =
      (Event.inbound event).given (.inbound i) := by
  cases TcpProxy.step_transfer h with
  | relay direction data => cases direction <;> simp [payload, Observation.payload,
      Observation.towards?, Observation.relay?, Event.given]
  | streamRelay direction data => cases direction <;> simp [payload, Observation.payload,
      Observation.towards?, Observation.relay?, Event.given]
  | still hrelay _ hstill =>
      rw [payload_of_quiet hstill.quiet]
      cases event with
      | relay j direction data => exact absurd rfl (hrelay j direction data)
      | _ => rfl
  | _ => simp [payload, Observation.payload, Observation.towards?, Observation.relay?,
      Event.given]

private theorem stream_given_taken
    (h : proxy.step shared t event = some (shared', t', observed)) (k : Nat) :
    payload (.stream k) .toClient (observed.map .inbound) =
        (Event.inbound event).given (.stream k) ∧
      payload (.stream k) .toUpstream (observed.map .inbound) =
        (Event.inbound event).taken (.stream k) := by
  cases TcpProxy.step_transfer h with
  | relay direction data => cases direction <;> simp [payload, Observation.payload,
      Observation.towards?, Observation.relay?, Event.given, Event.taken]
  | streamRelay direction data => cases direction <;> simp [payload, Observation.payload,
      Observation.towards?, Observation.relay?, Event.given, Event.taken]
  | still _ hstream hstill =>
      rw [payload_of_quiet hstill.quiet, payload_of_quiet hstill.quiet]
      cases event with
      | streamRelay j direction data => exact absurd rfl (hstream j direction data)
      | _ => exact ⟨rfl, rfl⟩
  | _ => simp [payload, Observation.payload, Observation.towards?, Observation.relay?,
      Event.given, Event.taken]

private theorem inbound_event_passes
    (h : node.inbound.step s.shared s.inbound event = some (shared', t', observed)) (i : Nat) :
    Passes (.inbound i) s ((Event.inbound event).given (.inbound i)) (event.taken i)
      { s with shared := shared', inbound := t' } (observed.map .inbound) := by
  have hchange := TcpProxy.step_change h
  refine ⟨?_, ?_, ?_, inbound_given h i, ?_, ?_⟩
  · rintro session ⟨conn, hi, hconn⟩
    exact hchange.settledOn hi hconn
  · rintro ⟨conn, hi, hconn⟩
    exact hchange.began hi hconn
  · rintro ⟨conn, hi, hconn⟩
    refine ⟨hchange.isOver hi hconn, payload_eq_nil fun o hmem hrelay => ?_⟩
    obtain ⟨o, ho, rfl⟩ := List.mem_map.mp hmem
    cases o with
    | relayed j stream tls direction data =>
        cases stream with
        | none =>
            obtain rfl : j = i := by simpa [Observation.relay?] using hrelay
            obtain ⟨⟨addr, pc, hpc, -⟩, -⟩ := hchange.of_relayed ho
            cases hi.symm.trans hpc
            exact hconn
        | some k => cases hrelay
    | _ => cases hrelay
  · rintro session ⟨conn, hi, -⟩
    obtain ⟨next, hnext, hflow⟩ := TcpProxy.step_flow h hi
    rw [Relay.incoming, payload_inbound_toUpstream]
    simp only [State.held, hi, hnext, Option.map_some, Option.getD_some]
    exact hflow.imp_right fun ⟨hover, hprefix⟩ => ⟨⟨next, hnext, hover⟩, hprefix⟩
  · intro o hmem hrelay
    obtain ⟨o, ho, rfl⟩ := List.mem_map.mp hmem
    cases o with
    | relayed j stream tls direction data =>
        cases stream with
        | none =>
            obtain rfl : j = i := by simpa [Observation.relay?] using hrelay
            obtain ⟨⟨addr, pc, hpc, hsession⟩, hbegan⟩ := hchange.of_relayed ho
            refine ⟨hbegan, ?_⟩
            rintro session ⟨conn, hconn, hsettled⟩ own hown
            cases hpc.symm.trans hconn
            cases hown
            exact hsession session hsettled
        | some k => cases hrelay
    | _ => cases hrelay

private theorem stream_event_passes
    (h : node.inbound.step s.shared s.inbound event = some (shared', t', observed)) (k : Nat) :
    Passes (.stream k) s ((Event.inbound event).given (.stream k))
      ((Event.inbound event).taken (.stream k)) { s with shared := shared', inbound := t' }
      (observed.map .inbound) := by
  have hchange := TcpProxy.step_change h
  obtain ⟨hgiven, htaken⟩ := stream_given_taken h k
  have hbegan : s.Began (.stream k) →
      State.Began { s with shared := shared', inbound := t' } (.stream k) := by
    intro hlt
    obtain ⟨stream, hk⟩ : ∃ stream, s.inbound.streams[k]? = some stream :=
      ⟨_, List.getElem?_eq_getElem hlt⟩
    obtain ⟨next, hnext, -⟩ := hchange.stream hk
    exact (List.getElem?_eq_some_iff.mp hnext).1
  refine ⟨?_, hbegan, nofun, hgiven, fun _ _ => .inl ?_, ?_⟩
  · rintro session ⟨stream, hk, hsession⟩
    obtain ⟨next, hnext, htls⟩ := hchange.stream hk
    exact ⟨next, hnext, htls ▸ hsession⟩
  · rw [Relay.incoming, htaken]
    simp [State.held]
  · intro o hmem hrelay
    obtain ⟨o, ho, rfl⟩ := List.mem_map.mp hmem
    cases o with
    | relayed j stream tls direction data =>
        cases stream with
        | none => cases hrelay
        | some m =>
            obtain rfl : m = k := by simpa [Observation.relay?] using hrelay
            obtain ⟨stream, hk, htls⟩ := hchange.of_streamRelayed ho
            refine ⟨hbegan (List.getElem?_eq_some_iff.mp hk).1, ?_⟩
            rintro session ⟨other, hother, hsession⟩ own hown
            cases hk.symm.trans hother
            cases hown
            exact htls ▸ hsession
    | _ => cases hrelay

end Inbound

/-- Every step does at each end what the relay that the end is allows. -/
theorem step_passes (h : node.step s e = some (s', out)) (relay : Relay) :
    Passes relay s (e.given relay) (e.taken relay) s' out := by
  cases relay with
  | outbound i => exact outbound_passes h i
  | _ =>
      cases e with
      | inbound event =>
          obtain ⟨⟨shared, inbound, observed⟩, hstep, heq⟩ := Option.map_eq_some_iff.mp h
          cases heq
          first
            | exact inbound_event_passes hstep _
            | exact stream_event_passes hstep _
      | outbound event =>
          obtain ⟨⟨shared, outbound, observed⟩, hstep, heq⟩ := Option.map_eq_some_iff.mp h
          cases heq
          refine .of_eq (fun _ => .rfl) rfl .rfl .rfl fun o hmem => ?_
          obtain ⟨o, -, rfl⟩ := List.mem_map.mp hmem
          cases o <;> nofun
      | policy call =>
          cases h
          exact .of_eq (fun _ => .rfl) rfl .rfl .rfl (by simp)
      | evictIdentity leafDer =>
          cases h
          exact .of_eq (fun _ => .rfl) rfl .rfl .rfl (by simp)

theorem began_of_run {parse : X509Parser} {policy : PolicyEngine} {events : List Event}
    (hrun : node.step.exec (node.initial parse policy) events = some (s, trace)) :
    ∀ o ∈ trace, ∀ relay, o.relay? = some relay → s.Began relay := by
  refine Step.invariant (I := fun trace s =>
    ∀ o ∈ trace, ∀ relay, o.relay? = some relay → s.Began relay) (fun h hstep => ?_) (by simp) hrun
  intro o hmem relay hrelay
  have hpasses := step_passes hstep relay
  rcases List.mem_append.mp hmem with hold | hnew
  · exact hpasses.began (h o hold relay hrelay)
  · exact (hpasses.relayed o hnew hrelay).1

end Node

end Interlink
