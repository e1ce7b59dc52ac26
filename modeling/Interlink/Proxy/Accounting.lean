import Interlink.Metrics.Registry
import Interlink.Proxy.Shutdown

/-!
# The accounting of connections

Every handler of an accepted connection and every relay of an inbound mux stream
records its start, and on each way out exactly one end.  So the gauge of active
connections shows the handlers and relays in progress.
-/

namespace Interlink

open Interlink.Foundation

/-! ## The outbound proxy -/

namespace OutboundProxy

def Observation.entry : Observation → Option (Ledger.Entry Ending)
  | .metric call => call.entry
  | _ => none

/-- A route that is being dropped has nothing left to record. -/
def Pc.stage : Pc → Ledger.Stage
  | .unlocking next => next.stage
  | .dropping _ => .ended
  | _ => .active

def Conn.stage : Conn → Ledger.Stage
  | .accepted _ | .spawned _ => .pending
  | .resolving _ => .active
  | .routing _ pc => pc.stage
  | .leaving | .releasing | .finished => .ended

variable {proxy : OutboundProxy} {shared shared' : Shared} {s s' : State} {i : Nat}
  {addr : SocketAddr} {pc : Pc} {effect : Effect} {conn : Conn} {e : Event}
  {out : List Observation}

theorem stage_leave (locked : Bool) (route : Route) :
    (leave locked (.returning route)).stage = .active := by
  cases locked <;> rfl

theorem stage_decided (subject : Subject) (decision : Decision) :
    (decided subject decision).stage = .active :=
  decided_cases (P := fun _ pc => pc.stage = .active) (fun _ _ => rfl) (fun _ _ => rfl)
    (fun _ _ => rfl) (fun locked _ => stage_leave locked _) (fun locked _ => stage_leave locked _)
    subject decision

theorem stage_route (proxy : OutboundProxy) : proxy.route.stage = .active := by
  unfold route
  split <;> rfl

theorem Move.passage (h : Move proxy shared s i addr pc effect conn out) :
    Ledger.Passage pc.stage conn.stage (out.filterMap Observation.entry) := by
  cases h with
  | relayEnd result =>
      obtain ⟨kind, hkind⟩ := entry_recordRelayResult result
      simp only [List.filterMap, Observation.entry, hkind]
      exact .finish kind
  | returnDenied => exact .finish Ending.failed
  | returnFailed => exact .finish Ending.failed
  | handshakeError | identifyError | openFresh | evictFresh =>
      change Ledger.Passage .active (leave _ _).stage []
      rw [stage_leave]
      exact .stay _
  | decideNamespace | decideGlobal =>
      change Ledger.Passage .active (decided _ _).stage []
      rw [stage_decided]
      exact .stay _
  | _ => exact .stay _

theorem Change.turn (h : Change proxy shared s e shared' s' out) :
    Ledger.Turn (Ledger.count Conn.stage .active s.conns) (Ledger.count Conn.stage .ended s.conns)
      (Ledger.count Conn.stage .active s'.conns) (Ledger.count Conn.stage .ended s'.conns)
      (out.filterMap Observation.entry) := by
  cases h with
  | refuse => exact .stay _ _
  | saturate => exact .stay _ _
  | accept =>
      rw [Ledger.count_append_pending rfl (by decide), Ledger.count_append_pending rfl (by decide)]
      exact .stay _ _
  | start hi => exact .set (.stay _) hi rfl rfl
  | begin hi => exact .set .start hi rfl rfl
  | enter _ hi => exact .set (.stay _) hi rfl (stage_route proxy)
  | unresolved _ hi => exact .set (.finish Ending.failed) hi rfl rfl
  | move _ hi hmove => exact .set hmove.passage hi rfl rfl
  | leave hi => exact .set (.stay _) hi rfl rfl
  | release hi => exact .set (.stay _) hi rfl rfl
  | driverExit => exact .stay _ _
  | driverEvict => exact .stay _ _

theorem Change.tunnelClosed_not_mem (h : Change proxy shared s e shared' s' out) :
    .metric .tunnelClosed ∉ out := by
  cases h with
  | move _ _ hmove => cases hmove <;> simp [Ne.symm (recordRelayResult_ne_tunnelClosed _)]
  | _ => simp

end OutboundProxy

/-! ## The inbound proxy -/

namespace TcpProxy

def Observation.entry : Observation → Option (Ledger.Entry Ending)
  | .metric call => call.entry
  | _ => none

def Conn.stage : Conn → Ledger.Stage
  | .accepted _ | .spawned _ => .pending
  | .resolving _ | .handling _ _ => .active
  | .leaving | .releasing | .finished => .ended

def Stream.stage (stream : Stream) : Ledger.Stage :=
  match stream.pc with
  | .spawned => .pending
  | .dialing | .relaying => .active
  | .finished => .ended

def count (which : Ledger.Stage) (s : State) : Nat :=
  Ledger.count Conn.stage which s.conns + Ledger.count Stream.stage which s.streams

variable {proxy : TcpProxy} {shared shared' : Shared} {s s' : State} {i : Nat}
  {addr : SocketAddr} {tls : TlsStream} {pc : Pc} {effect : Effect} {conn : Conn} {e : Event}
  {out : List Observation}

theorem passage_decided (source destination : SpiffeId) (decision : Decision) :
    Ledger.Passage .active (decided addr tls decision).1.stage
      (([Observation.evaluated i source destination decision, .metric (.policy decision)] ++
        (decided addr tls decision).2).filterMap Observation.entry) := by
  cases decision with
  | allow =>
      simp only [decided]
      split <;> exact .stay _
  | deny reason => exact .finish Ending.failed

theorem Move.passage (h : Move proxy shared s i addr pc effect conn out) :
    Ledger.Passage .active conn.stage (out.filterMap Observation.entry) := by
  cases h with
  | acceptFailed => exact .finish Ending.failed
  | dialFailed => exact .finish Ending.failed
  | decideNamespace => exact passage_decided _ _ _
  | decideGlobal => exact passage_decided _ _ _
  | readError => exact .finish Ending.failed
  | writeError => exact .finish Ending.failed
  | relayEnd result =>
      obtain ⟨kind, hkind⟩ := entry_recordRelayResult result
      simp only [List.filterMap, Observation.entry, hkind]
      exact .finish kind
  | closeTunnel => exact .finish Ending.carrier
  | _ => exact .stay _

theorem count_onStreams (i : Nat) (addr : SocketAddr) (effect : Effect) (streams : List Stream)
    {which : Ledger.Stage} (hwhich : which ≠ .pending) :
    Ledger.count Stream.stage which (effect.onStreams i addr streams) =
      Ledger.count Stream.stage which streams := by
  cases effect with
  | spawn tls => exact Ledger.count_append_pending rfl hwhich
  | _ => rfl

private theorem turn_conns {old next : Conn} {new : List (Ledger.Entry Ending)}
    (hi : s.conns[i]? = some old) (hconns : s'.conns = s.conns.set i next)
    (hstreams : ∀ which, which ≠ .pending →
      Ledger.count Stream.stage which s'.streams = Ledger.count Stream.stage which s.streams)
    (hpassage : Ledger.Passage old.stage next.stage new) :
    Ledger.Turn (count .active s) (count .ended s) (count .active s') (count .ended s') new := by
  unfold count
  rw [hconns, hstreams .active (by decide), hstreams .ended (by decide)]
  exact (Ledger.Turn.set hpassage hi rfl rfl).add_right _ _

private theorem turn_streams {k : Nat} {stream : Stream} {next : StreamPc}
    {new : List (Ledger.Entry Ending)} (hk : s.streams[k]? = some stream)
    (hpassage : Ledger.Passage stream.stage ({ stream with pc := next } : Stream).stage new) :
    Ledger.Turn (count .active s) (count .ended s) (count .active (s.gotoStream k stream next))
      (count .ended (s.gotoStream k stream next)) new :=
  (Ledger.Turn.set hpassage hk rfl rfl).add_left _ _

theorem Change.turn (h : Change proxy shared s e shared' s' out) :
    Ledger.Turn (count .active s) (count .ended s) (count .active s') (count .ended s')
      (out.filterMap Observation.entry) := by
  cases h with
  | refuse => exact .stay _ _
  | saturate => exact .stay _ _
  | accept =>
      unfold count
      rw [Ledger.count_append_pending rfl (by decide), Ledger.count_append_pending rfl (by decide)]
      exact .stay _ _
  | start hi => exact turn_conns hi rfl (fun _ _ => rfl) (.stay _)
  | begin hi => exact turn_conns hi rfl (fun _ _ => rfl) .start
  | enter hi => exact turn_conns hi rfl (fun _ _ => rfl) (.stay _)
  | unresolved hi => exact turn_conns hi rfl (fun _ _ => rfl) (.finish Ending.failed)
  | @move e i addr pc effect conn out hi hmove =>
      exact turn_conns hi rfl (fun _ => count_onStreams i addr effect s.streams) hmove.passage
  | leave hi => exact turn_conns hi rfl (fun _ _ => rfl) (.stay _)
  | release hi => exact turn_conns hi rfl (fun _ _ => rfl) (.stay _)
  | streamStart hk hpc =>
      refine turn_streams hk ?_
      rw [Stream.stage, hpc]
      exact .start
  | streamDial hk hpc =>
      refine turn_streams hk ?_
      rw [Stream.stage, hpc]
      exact .stay _
  | streamDialError hk hpc =>
      refine turn_streams hk ?_
      rw [Stream.stage, hpc]
      exact .finish Ending.failed
  | streamEnd hk hpc result =>
      obtain ⟨kind, hkind⟩ := entry_recordRelayResult result
      refine turn_streams hk ?_
      simp only [List.filterMap, Observation.entry, hkind, Stream.stage, hpc]
      exact .finish kind
  | streamRelay => exact .stay _ _

theorem Change.serving_of_tunnelClosed (h : Change proxy shared s e shared' s' out)
    (hmem : .metric .tunnelClosed ∈ out) :
    ∃ (i : Nat) (addr : SocketAddr) (tls : TlsStream),
      s.conns[i]? = some (.handling addr (.serving tls)) ∧ s'.conns[i]? = some .leaving := by
  have hdecided : ∀ (addr : SocketAddr) (tls : TlsStream) (decision : Decision),
      .metric .tunnelClosed ∉ (decided addr tls decision).2 := by
    intro addr tls decision
    cases decision with
    | allow =>
        simp only [decided]
        split <;> simp
    | deny reason => simp [decided]
  cases h with
  | @move e i addr pc effect conn out hi hmove =>
      cases hmove with
      | @closeTunnel tls =>
          exact ⟨i, addr, tls, hi, Tasks.getElem?_set_of hi _⟩
      | _ => simp [hdecided, Ne.symm (recordRelayResult_ne_tunnelClosed _)] at hmem
  | _ => simp [Ne.symm (recordRelayResult_ne_tunnelClosed _)] at hmem

def Event.closesTunnel : Event → Bool
  | .closeTunnel _ => true
  | _ => false

theorem step_closeTunnel (hstep : proxy.step shared s e = some (shared', s', out)) :
    if e.closesTunnel then out = [.metric .tunnelClosed] else .metric .tunnelClosed ∉ out := by
  split
  next hcloses =>
    cases e with
    | closeTunnel i =>
        obtain ⟨conn, -, hrespond⟩ := Option.bind_eq_some_iff.mp hstep
        cases conn with
        | handling addr pc =>
            cases pc with
            | serving tls =>
                cases hrespond
                rfl
            | _ => cases hrespond
        | _ => cases hrespond
    | _ => cases hcloses
  next hcloses =>
    intro hmem
    obtain ⟨i, addr, tls, hserving, hleaving⟩ :=
      (step_change hstep).serving_of_tunnelClosed hmem
    have hopen : e ≠ .closeTunnel i := by
      rintro rfl
      exact hcloses rfl
    cases (serving_step hserving hopen hstep).symm.trans hleaving

end TcpProxy

/-! ## The sidecar -/

namespace Node

def Observation.record : Observation → Option Metric
  | .outbound (.metric call) => some call
  | .inbound (.metric call) => some call
  | _ => none

def recorded (trace : List Observation) : InterlinkMetrics :=
  .recorded (trace.filterMap Observation.record)

def entries (trace : List Observation) : List (Ledger.Entry Ending) :=
  (trace.filterMap Observation.record).filterMap Metric.entry

/-- The handlers of accepted connections and the relays of inbound mux streams in a stage. -/
def count (which : Ledger.Stage) (s : State) : Nat :=
  Ledger.count OutboundProxy.Conn.stage which s.outbound.conns + TcpProxy.count which s.inbound

def Event.closesTunnel : Event → Bool
  | .inbound event => event.closesTunnel
  | _ => false

variable {node : Node} {parse : X509Parser} {policy : PolicyEngine} {events : List Event}
  {s s' : State} {e : Event} {trace out now : List Observation}

@[simp]
theorem entries_append (l r : List Observation) : entries (l ++ r) = entries l ++ entries r := by
  simp [entries]

theorem entries_map_outbound (out : List OutboundProxy.Observation) :
    entries (out.map .outbound) = out.filterMap OutboundProxy.Observation.entry := by
  rw [entries, List.filterMap_map, List.filterMap_filterMap]
  refine List.filterMap_congr fun o _ => ?_
  cases o <;> rfl

theorem entries_map_inbound (out : List TcpProxy.Observation) :
    entries (out.map .inbound) = out.filterMap TcpProxy.Observation.entry := by
  rw [entries, List.filterMap_map, List.filterMap_filterMap]
  refine List.filterMap_congr fun o _ => ?_
  cases o <;> rfl

theorem Change.turn (h : Change node s e s' out) :
    Ledger.Turn (count .active s) (count .ended s) (count .active s') (count .ended s')
      (entries out) := by
  cases h with
  | outbound hchange =>
      rw [entries_map_outbound]
      exact hchange.turn.add_right _ _
  | inbound hchange =>
      rw [entries_map_inbound]
      exact hchange.turn.add_left _ _
  | policy => exact .stay _ _
  | evictIdentity => exact .stay _ _

theorem balanced (hrun : node.step.exec (node.initial parse policy) events = some (s, trace)) :
    Ledger.Balanced (entries trace) (count .active s) (count .ended s) :=
  Step.invariant (s := node.initial parse policy)
    (I := fun trace s => Ledger.Balanced (entries trace) (count .active s) (count .ended s))
    (fun h hstep => by
      rw [entries_append]
      exact h.turn (step_change hstep).turn)
    Ledger.Balanced.nil hrun

def Observation.isTunnelClosed (o : Observation) : Bool :=
  o.record = some .tunnelClosed

theorem isTunnelClosed_outbound (o : OutboundProxy.Observation) :
    (Observation.outbound o).isTunnelClosed = true ↔ o = .metric .tunnelClosed := by
  cases o <;> simp [Observation.isTunnelClosed, Observation.record]

theorem isTunnelClosed_inbound (o : TcpProxy.Observation) :
    (Observation.inbound o).isTunnelClosed = true ↔ o = .metric .tunnelClosed := by
  cases o <;> simp [Observation.isTunnelClosed, Observation.record]

theorem countP_isTunnelClosed (hstep : node.step s e = some (s', out)) :
    out.countP Observation.isTunnelClosed = e.closesTunnel.toNat := by
  cases e with
  | outbound event =>
      obtain ⟨⟨shared, outbound, out⟩, hproxy, heq⟩ := Option.map_eq_some_iff.mp hstep
      cases heq
      refine List.countP_eq_zero.mpr fun o ho hclosed => ?_
      obtain ⟨o, hmem, rfl⟩ := List.mem_map.mp ho
      rw [isTunnelClosed_outbound] at hclosed
      subst hclosed
      exact (OutboundProxy.step_change hproxy).tunnelClosed_not_mem hmem
  | inbound event =>
      obtain ⟨⟨shared, inbound, out⟩, hproxy, heq⟩ := Option.map_eq_some_iff.mp hstep
      cases heq
      have hclose := TcpProxy.step_closeTunnel hproxy
      change (out.map Observation.inbound).countP _ = event.closesTunnel.toNat
      cases hevent : event.closesTunnel with
      | true =>
          rw [hevent, if_pos rfl] at hclose
          rw [hclose]
          rfl
      | false =>
          rw [hevent, if_neg Bool.false_ne_true] at hclose
          refine List.countP_eq_zero.mpr fun o ho hclosed => ?_
          obtain ⟨o, hmem, rfl⟩ := List.mem_map.mp ho
          rw [isTunnelClosed_inbound] at hclosed
          exact hclose (hclosed ▸ hmem)
  | policy call =>
      cases hstep
      rfl
  | evictIdentity leafDer =>
      cases hstep
      rfl

theorem count_carrier (trace : List Observation) :
    (entries trace).count (.finish .carrier) = trace.countP Observation.isTunnelClosed := by
  rw [entries, List.filterMap_filterMap, List.count, List.countP_filterMap]
  refine List.countP_congr fun o _ => ?_
  rw [Observation.isTunnelClosed, decide_eq_true_iff]
  cases hrecord : o.record with
  | none => simp
  | some call =>
      rw [Option.some.injEq, ← call.entry_eq_carrier_iff]
      cases hentry : call.entry <;> simp [hentry]

/--
The registry at a point of a run, of which `events` are the steps and `trace` is what has
been observed.
-/
structure Measured (events : List Event) (trace : List Observation) (s : State) : Prop where
  active : (recorded trace).connectionsActive = count .active s
  total : (recorded trace).connectionsTotal + events.countP Event.closesTunnel = count .ended s
  duration : (recorded trace).connectionDuration + (recorded trace).connectionErrorsTotal =
    (recorded trace).connectionsTotal

theorem Measured.of_balanced
    (hbalanced : Ledger.Balanced (entries trace) (count .active s) (count .ended s))
    (hcarriers : (entries trace).count (.finish .carrier) = events.countP Event.closesTunnel) :
    Measured events trace s := by
  have hagrees := InterlinkMetrics.agrees_recorded (trace.filterMap Observation.record)
  have hactive := hagrees.active
  have htotal := hagrees.total
  change _ + ((entries trace).countP _ : Int) = ((entries trace).countP _ : Int) at hactive
  change _ + (entries trace).count _ = (entries trace).countP _ at htotal
  refine ⟨?_, ?_, hagrees.duration⟩
  · have := hbalanced.active
    change (InterlinkMetrics.recorded _).connectionsActive = _
    omega
  · rw [← hcarriers, hbalanced.ended]
    exact htotal

/--
The registry agrees with the handlers and relays between any two steps, and between any
two observations of a step it agrees with those before or those after it.
-/
theorem measured (hrun : node.step.exec (node.initial parse policy) events = some (s, trace)) :
    Measured events trace s ∧
      ∀ e s' out now later, node.step s e = some (s', out) → out = now ++ later →
        Measured events (trace ++ now) s ∨ Measured (events ++ [e]) (trace ++ now) s' := by
  have hbalanced := balanced hrun
  have hcarriers : (entries trace).count (.finish .carrier) =
      events.countP Event.closesTunnel := by
    rw [count_carrier]
    refine Step.countP_exec ?_ hrun
    exact fun hstep => countP_isTunnelClosed hstep
  refine ⟨.of_balanced hbalanced hcarriers, fun e s' out now later hstep hout => ?_⟩
  have hturn := (step_change hstep).turn
  have hpart : entries now <+: entries out := by
    rw [hout, entries_append]
    exact List.prefix_append _ _
  rcases hturn.eq_nil_or_eq hpart with hnow | hnow
  · refine .inl (.of_balanced ?_ ?_) <;> rw [entries_append, hnow, List.append_nil]
    · exact hbalanced
    · exact hcarriers
  · refine .inr (.of_balanced ?_ ?_) <;> rw [entries_append, hnow]
    · exact hbalanced.turn hturn
    · rw [List.count_append, hcarriers, count_carrier, countP_isTunnelClosed hstep,
        List.countP_append]
      cases hcloses : e.closesTunnel <;> simp [hcloses]

namespace Example

/-- An inbound connection whose handshake fails after its upstream was dialed. -/
private def refusedHandshake : List Event :=
  [.inbound (.accept none), .inbound (.run 0), .inbound (.run 0), .inbound (.run 0),
    .inbound (.dialed 0 true), .inbound (.handshaken 0 (.error (.tls "bad record".toList))),
    .inbound (.run 0)]

theorem refusedHandshake_measured :
    ∃ last, sidecar.step.exec (sidecar.initial readSvid allowAny) refusedHandshake = some last ∧
      (recorded last.2).connectionErrorsTotal = 1 ∧ Measured refusedHandshake last.2 last.1 := by
  have hany : (sidecar.step.exec (sidecar.initial readSvid allowAny) refusedHandshake).any
      (fun last => (recorded last.2).connectionErrorsTotal == 1) = true := by
    decide
  obtain ⟨last, hlast, hfailed⟩ := (Option.any_eq_true _ _).mp hany
  exact ⟨last, hlast, beq_iff_eq.mp hfailed, (measured hlast).1⟩

end Example

end Node

end Interlink
