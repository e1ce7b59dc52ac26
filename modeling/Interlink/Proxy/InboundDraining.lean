import Interlink.Foundation.Draining
import Interlink.Proxy.InboundMoves

/-!
# Connections of the inbound proxy come to an end

The same for the connections that the inbound proxy has accepted and for the streams of
its tunnels.  Here nothing is waited for but the environment.
-/

namespace Interlink.TcpProxy

open Interlink.Foundation

/-! ## The work of a connection and of a stream -/

def Accepting.work : Accepting → Nat
  | .done _ => 0
  | .caching _ _ => 1
  | .identifying _ => 2
  | .handshaking => 3

def Pc.work : Pc → Nat
  | .relaying _ | .serving _ => 0
  | .forwarding _ _ => 1
  | .detecting _ => 2
  | .evaluatingGlobal _ => 3
  | .evaluating _ => 4
  | .joining accepting dialed => accepting.work + dialed.isNone.toNat + 5

def Conn.work : Conn → Nat
  | .finished => 0
  | .releasing => 1
  | .leaving => 2
  | .handling _ pc => pc.work + 3
  | .resolving _ => 13
  | .spawned _ => 14
  | .accepted _ => 15

def budget : Nat := 15

def Stream.work (stream : Stream) : Nat :=
  match stream.pc with
  | .finished => 0
  | .relaying => 1
  | .dialing => 2
  | .spawned => 3

def streamBudget : Nat := 3

/--
The connection that an event advances; bytes that are relayed and streams that are
accepted do not.
-/
def Event.advances : Event → Option Nat
  | .run i | .discovered i _ | .handshaken i _ | .dialed i _ | .read i _ | .written i _ _
  | .relayEnd i _ | .closeTunnel i => some i
  | _ => none

def Event.advancesStream : Event → Option Nat
  | .runStream k | .streamDialed k _ | .streamEnd k _ => some k
  | _ => none

variable {proxy : TcpProxy} {shared shared' : Shared} {s s' : State} {i k : Nat}
  {addr : SocketAddr} {pc : Pc} {effect : Effect} {conn : Conn} {e : Event}
  {out : List Observation}

theorem work_decided_lt (tls : TlsStream) (decision : Decision) :
    (decided addr tls decision).1.work < 6 := by
  cases decision with
  | deny reason => simp [decided, Conn.work]
  | allow =>
      simp only [decided]
      split <;> simp [Conn.work, Pc.work]

theorem serving_or_relaying_of_work_eq_zero (h : pc.work = 0) :
    ∃ tls, pc = .serving tls ∨ pc = .relaying tls := by
  cases pc with
  | serving tls => exact ⟨tls, .inl rfl⟩
  | relaying tls => exact ⟨tls, .inr rfl⟩
  | joining accepting dialed => cases h
  | _ => cases h

/--
Every branch lowers the work, but a relay of bytes and an accepted stream; only the
last of them spawns a task.
-/
theorem Move.work_lt (h : Move proxy shared s i addr pc effect conn out) :
    conn.work < pc.work + 3 ∧ effect.onStreams i addr s.streams = s.streams ∨
      pc.work = 0 ∧ conn = .handling addr pc := by
  cases h with
  | relay => exact .inr ⟨rfl, rfl⟩
  | acceptStream => exact .inr ⟨rfl, rfl⟩
  | decideNamespace hscan => exact .inl ⟨Nat.lt_succ_of_lt (work_decided_lt _ _), rfl⟩
  | decideGlobal hscan => exact .inl ⟨work_decided_lt _ _, rfl⟩
  | _ => exact .inl ⟨by simp [Conn.work, Pc.work, Accepting.work], rfl⟩

structure Turns (s : State) (e : Event) (s' : State) : Prop where
  conns : Tasks.Turn Conn.work budget s.conns e.advances s'.conns
  streams : Tasks.Turn Stream.work streamBudget s.streams e.advancesStream s'.streams
  streams_eq : e.advances ≠ none → s'.streams = s.streams
  conns_eq : e.advancesStream ≠ none → s'.conns = s.conns

private theorem Turns.ofConn (he : e.advances = some i) (hi : s.conns[i]? = some conn)
    {next : Conn} (hnext : next.work < conn.work) (hconns : s'.conns = s.conns.set i next)
    (hstreams : s'.streams = s.streams) : Turns s e s' := by
  have hstream : e.advancesStream = none := by cases e <;> first | rfl | cases he
  refine ⟨?_, ?_, fun _ => hstreams, fun hne => absurd hstream hne⟩
  · rw [he, hconns]
    exact .advance hi hnext
  · rw [hstream, hstreams]
    exact .rest

private theorem Turns.ofStream {stream next : Stream} (he : e.advancesStream = some k)
    (hk : s.streams[k]? = some stream) (hnext : next.work < stream.work)
    (hstreams : s'.streams = s.streams.set k next) (hconns : s'.conns = s.conns) :
    Turns s e s' := by
  have hconn : e.advances = none := by cases e <;> first | rfl | cases he
  refine ⟨?_, ?_, fun hne => absurd hconn hne, fun _ => hconns⟩
  · rw [hconn, hconns]
    exact .rest
  · rw [he, hstreams]
    exact .advance hk hnext

private theorem performed_turns {reaction : Reaction} (he : e.advances = some i)
    (hi : s.conns[i]? = some (.handling addr pc))
    (hmove : ∀ {effect conn out}, reaction = some (effect, conn, out) →
      Move proxy shared s i addr pc effect conn out)
    (hmoves : ∀ {effect conn out}, pc.work = 0 → reaction = some (effect, conn, out) →
      conn ≠ .handling addr pc)
    (h : performed shared s i addr reaction = some (shared', s', out)) : Turns s e s' := by
  obtain ⟨⟨effect, conn, out⟩, hreaction, heq⟩ := Option.map_eq_some_iff.mp h
  cases heq
  rcases (hmove hreaction).work_lt with ⟨hlt, hstreams⟩ | ⟨hpc, hconn⟩
  · exact .ofConn he hi hlt rfl hstreams
  · exact absurd hconn (hmoves hpc hreaction)

private theorem respond_turns (proxy : TcpProxy) {react : SocketAddr → Pc → Reaction}
    (he : e.advances = some i)
    (hi : s.conns[i]? = some conn)
    (hmove : ∀ {addr pc effect conn out}, react addr pc = some (effect, conn, out) →
      Move proxy shared s i addr pc effect conn out)
    (hmoves : ∀ {addr pc effect conn out}, pc.work = 0 →
      react addr pc = some (effect, conn, out) → conn ≠ .handling addr pc)
    (h : respond shared s i react conn = some (shared', s', out)) : Turns s e s' := by
  cases conn with
  | handling addr pc => exact performed_turns he hi hmove hmoves h
  | _ => cases h

private theorem resolved_turns {target : UpstreamTarget}
    {result : Except InterlinkError SocketAddr} (he : e.advances = some i)
    (hi : s.conns[i]? = some (.resolving target))
    (h : some (shared, resolved s i result) = some (shared', s', out)) : Turns s e s' := by
  cases result with
  | ok addr =>
      cases h
      exact .ofConn he hi (by simp [Conn.work, Pc.work, Accepting.work]) rfl rfl
  | error error =>
      cases h
      exact .ofConn he hi (by simp [Conn.work]) rfl rfl

private theorem runConn_turns (hi : s.conns[i]? = some conn)
    (h : runConn proxy shared s i conn = some (shared', s', out)) : Turns s (.run i) s' := by
  cases conn with
  | accepted target =>
      cases h
      exact .ofConn rfl hi (by simp [Conn.work]) rfl rfl
  | spawned target =>
      cases h
      exact .ofConn rfl hi (by simp [Conn.work]) rfl rfl
  | resolving target =>
      simp only [runConn] at h
      split at h
      next => exact resolved_turns rfl hi h
      next => cases h
  | handling addr pc =>
      refine performed_turns rfl hi advance_move (fun hpc hadvance => ?_) h
      obtain ⟨tls, rfl | rfl⟩ := serving_or_relaying_of_work_eq_zero hpc <;> cases hadvance
  | leaving =>
      cases h
      exact .ofConn rfl hi (by simp [Conn.work]) rfl rfl
  | releasing =>
      cases h
      exact .ofConn rfl hi (by simp [Conn.work]) rfl rfl
  | finished => cases h

/--
The bytes that are relayed and the streams that are accepted leave the connection where
it is; an accepted stream is a new task.
-/
private theorem respond_turns_of_stays {react : SocketAddr → Pc → Reaction}
    (he : e.advances = none) (hstream : e.advancesStream = none)
    (hi : s.conns[i]? = some conn)
    (hstays : ∀ {addr pc effect conn out}, react addr pc = some (effect, conn, out) →
      conn = .handling addr pc)
    (h : respond shared s i react conn = some (shared', s', out)) : Turns s e s' := by
  cases conn with
  | handling addr pc =>
      obtain ⟨⟨effect, conn, out⟩, hreaction, heq⟩ := Option.map_eq_some_iff.mp h
      cases heq
      obtain rfl := hstays hreaction
      refine ⟨?_, ?_, fun hne => absurd he hne, fun hne => absurd hstream hne⟩
      · rw [he]
        exact .same hi
      · rw [hstream]
        cases effect with
        | spawn tls => exact .arrive (Nat.le_refl 3)
        | _ => exact .rest
  | _ => cases h

private theorem turns_of_eq (he : e.advances = none) (hstream : e.advancesStream = none) :
    Turns s e s := by
  refine ⟨?_, ?_, fun _ => rfl, fun _ => rfl⟩
  · rw [he]
    exact .rest
  · rw [hstream]
    exact .rest

theorem step_turns (h : proxy.step shared s e = some (shared', s', out)) : Turns s e s' := by
  cases e with
  | accept originalDst =>
      simp only [step, accept] at h
      split at h
      next =>
        cases h
        exact turns_of_eq rfl rfl
      next target _ =>
        split at h
        next =>
          cases h
          exact ⟨.arrive (Nat.le_refl 15), .rest, absurd rfl, absurd rfl⟩
        next =>
          cases h
          exact turns_of_eq rfl rfl
  | run i =>
      obtain ⟨conn, hi, hrun⟩ := Option.bind_eq_some_iff.mp h
      exact runConn_turns hi hrun
  | discovered i result =>
      obtain ⟨conn, hi, hdiscover⟩ := Option.bind_eq_some_iff.mp h
      cases conn with
      | resolving target =>
          simp only [discover] at hdiscover
          split at hdiscover
          next => exact resolved_turns rfl hi hdiscover
          next => cases hdiscover
      | _ => cases hdiscover
  | handshaken i result =>
      obtain ⟨conn, hi, hrespond⟩ := Option.bind_eq_some_iff.mp h
      refine respond_turns proxy rfl hi handshaken_move ?_ hrespond
      intro addr pc effect conn out hpc hreact
      obtain ⟨tls, rfl | rfl⟩ := serving_or_relaying_of_work_eq_zero hpc <;> cases hreact
  | dialed i ok =>
      obtain ⟨conn, hi, hrespond⟩ := Option.bind_eq_some_iff.mp h
      refine respond_turns proxy rfl hi dialed_move ?_ hrespond
      intro addr pc effect conn out hpc hreact
      obtain ⟨tls, rfl | rfl⟩ := serving_or_relaying_of_work_eq_zero hpc <;> cases hreact
  | read i data =>
      obtain ⟨conn, hi, hrespond⟩ := Option.bind_eq_some_iff.mp h
      refine respond_turns proxy rfl hi read_move ?_ hrespond
      intro addr pc effect conn out hpc hreact
      obtain ⟨tls, rfl | rfl⟩ := serving_or_relaying_of_work_eq_zero hpc <;>
        simp [read] at hreact
  | written i delivered ok =>
      obtain ⟨conn, hi, hrespond⟩ := Option.bind_eq_some_iff.mp h
      refine respond_turns proxy rfl hi written_move ?_ hrespond
      intro addr pc effect conn out hpc hreact
      obtain ⟨tls, rfl | rfl⟩ := serving_or_relaying_of_work_eq_zero hpc <;> cases hreact
  | relay i direction data =>
      obtain ⟨conn, hi, hrespond⟩ := Option.bind_eq_some_iff.mp h
      refine respond_turns_of_stays rfl rfl hi ?_ hrespond
      intro addr pc effect conn out hreact
      cases pc <;> cases hreact
      rfl
  | relayEnd i result =>
      obtain ⟨conn, hi, hrespond⟩ := Option.bind_eq_some_iff.mp h
      refine respond_turns proxy rfl hi relayEnd_move ?_ hrespond
      intro addr pc effect conn out hpc hreact
      cases pc <;> cases hreact
      simp
  | acceptStream i =>
      obtain ⟨conn, hi, hrespond⟩ := Option.bind_eq_some_iff.mp h
      refine respond_turns_of_stays rfl rfl hi ?_ hrespond
      intro addr pc effect conn out hreact
      cases pc <;> cases hreact
      rfl
  | closeTunnel i =>
      obtain ⟨conn, hi, hrespond⟩ := Option.bind_eq_some_iff.mp h
      refine respond_turns proxy rfl hi closeTunnel_move ?_ hrespond
      intro addr pc effect conn out hpc hreact
      cases pc <;> cases hreact
      simp
  | runStream k =>
      obtain ⟨stream, hk, hrun⟩ := Option.bind_eq_some_iff.mp h
      unfold runStream at hrun
      split at hrun <;> cases hrun
      next hpc => exact .ofStream rfl hk (by simp [Stream.work, hpc]) rfl rfl
  | streamDialed k ok =>
      obtain ⟨stream, hk, hdialed⟩ := Option.bind_eq_some_iff.mp h
      unfold streamDialed at hdialed
      split at hdialed
      next hpc =>
        cases ok <;> cases hdialed <;>
          exact .ofStream rfl hk (by simp [Stream.work, hpc]) rfl rfl
      next => cases hdialed
  | streamRelay k direction data =>
      obtain ⟨stream, hk, hrelay⟩ := Option.bind_eq_some_iff.mp h
      unfold streamRelay at hrelay
      split at hrelay <;> cases hrelay
      next => exact turns_of_eq rfl rfl
  | streamEnd k result =>
      obtain ⟨stream, hk, hend⟩ := Option.bind_eq_some_iff.mp h
      unfold streamEnd at hend
      split at hend <;> cases hend
      next hpc => exact .ofStream rfl hk (by simp [Stream.work, hpc]) rfl rfl

/-! ## Who can go on -/

def Enabled (proxy : TcpProxy) (shared : Shared) (s : State) (i : Nat) : Prop :=
  ∃ e, e.advances = some i ∧ proxy.step shared s e ≠ none

private theorem enabled_of_advance (hi : s.conns[i]? = some (.handling addr pc))
    (hadvance : advance proxy shared i addr pc ≠ none) : Enabled proxy shared s i :=
  ⟨.run i, rfl, by simpa [step, hi, runConn, performed] using hadvance⟩

private theorem enabled_of_joining {accepting : Accepting} {dialed : Option Bool}
    (hi : s.conns[i]? = some (.handling addr (.joining accepting dialed))) :
    Enabled proxy shared s i := by
  cases accepting with
  | handshaking =>
      exact ⟨.handshaken i (.error (.tls [])), rfl,
        by simp [step, hi, respond, performed, handshaken]⟩
  | identifying session =>
      refine enabled_of_advance hi ?_
      simp only [advance]
      split <;> simp
  | caching leafDer tls => exact enabled_of_advance hi (by simp [advance])
  | done tls =>
      cases dialed with
      | none => exact ⟨.dialed i false, rfl, by simp [step, hi, respond, performed, dialed]⟩
      | some ok => exact enabled_of_advance hi (by simp [advance])

theorem enabled_of_ne_finished (proxy : TcpProxy) (shared : Shared)
    (hi : s.conns[i]? = some conn) (hconn : conn ≠ .finished) :
    Enabled proxy shared s i := by
  cases conn with
  | resolving target =>
      cases hresolve : target.resolve proxy.hasDiscovery with
      | done result => exact ⟨.run i, rfl, by simp [step, hi, runConn, hresolve]⟩
      | lookup name port =>
          exact ⟨.discovered i (.error (.dnsResolution [])), rfl,
            by simp [step, hi, discover, hresolve]⟩
  | handling addr pc =>
      cases pc with
      | joining accepting dialed => exact enabled_of_joining hi
      | evaluating tls =>
          refine enabled_of_advance hi ?_
          simp only [advance]
          split <;> simp
      | evaluatingGlobal tls => exact enabled_of_advance hi (by simp [advance])
      | serving tls =>
          exact ⟨.closeTunnel i, rfl, by simp [step, hi, respond, performed, closeTunnel]⟩
      | detecting tls => exact ⟨.read i none, rfl, by simp [step, hi, respond, performed, read]⟩
      | forwarding tls data =>
          exact ⟨.written i 0 false, rfl, by simp [step, hi, respond, performed, written]⟩
      | relaying tls =>
          exact ⟨.relayEnd i none, rfl, by simp [step, hi, respond, performed, relayEnd]⟩
  | finished => exact absurd rfl hconn
  | _ => exact ⟨.run i, rfl, by simp [step, hi, runConn]⟩

theorem stream_enabled_of_ne_finished (proxy : TcpProxy) (shared : Shared) {stream : Stream}
    (hk : s.streams[k]? = some stream)
    (hpc : stream.pc ≠ .finished) :
    ∃ e, e.advancesStream = some k ∧ proxy.step shared s e ≠ none := by
  cases hstream : stream.pc with
  | spawned => exact ⟨.runStream k, rfl, by simp [step, hk, runStream, hstream]⟩
  | dialing => exact ⟨.streamDialed k false, rfl, by simp [step, hk, streamDialed, hstream]⟩
  | relaying => exact ⟨.streamEnd k none, rfl, by simp [step, hk, streamEnd, hstream]⟩
  | finished => exact absurd hstream hpc

end Interlink.TcpProxy
