import Interlink.Foundation.Pipe
import Interlink.Proxy.Endpoints

/-!
# A mesh of sidecars

Sidecars that are connected to each other: the outbound proxy of one is the TLS client of
the inbound proxy of another.  A connection between two of them is a link, and every
application connection that goes over it is a wire, one for a link that is relayed one to
one and one for each stream of a mux tunnel.  What TLS promises is in the step function:
each end sees the certificates the other presented and the protocol they agreed on, and
bytes come out of a wire as they were put in.  Peers outside the mesh may do anything else
on sessions of their own.
-/

namespace Interlink

open Interlink.Foundation

/--
The workloads of a mesh.  A sidecar presents certificates for its own identity, and both
its proxies evaluate the policy with that identity.
-/
structure Mesh (ι : Type) where
  parse : X509Parser
  identity : ι → SpiffeId
  node : ι → Node
  policy : ι → PolicyEngine
  outbound_localId : ∀ w, (node w).outbound.localId = identity w
  inbound_localId : ∀ w, (node w).inbound.localId = identity w

namespace Mesh

/-- A TLS connection between two sidecars.  The client is done with the handshake first. -/
structure Link (ι : Type) where
  client : ι
  server : ι
  clientTls : TlsSession
  serverTls : Option TlsSession

/-- An application connection over a link, with the bytes that are under way. -/
structure Wire (ι : Type) where
  link : Nat
  client : ι × Node.Relay
  server : Option (ι × Node.Relay)
  up : List UInt8
  down : List UInt8
  deriving DecidableEq

structure State (ι : Type) where
  nodes : ι → Node.State
  links : List (Link ι)
  wires : List (Wire ι)

inductive Event (ι : Type) where
  | node (w : ι) (event : Node.Event)
  | connect (client : ι) (i : Nat) (server : ι) (chain : List Der) (alpn : Option (List UInt8))
      (resumed : Bool)
  | accept (l j : Nat) (chain : List Der) (resumed : Bool)
  | openStream (w : ι) (i l : Nat)
  | acceptStream (w : ι) (j m : Nat)

abbrev Observation (ι : Type) := ι × Node.Observation

variable {ι : Type} [DecidableEq ι]

def initial (mesh : Mesh ι) : State ι :=
  ⟨fun w => (mesh.node w).initial mesh.parse (mesh.policy w), [], []⟩

/-! ## Bytes under way -/

def taken (w : ι) (event : Node.Event) : Option (ι × Node.Relay) → List UInt8
  | some (v, relay) => if v = w then event.taken relay else []
  | none => []

def given (w : ι) (event : Node.Event) : Option (ι × Node.Relay) → List UInt8
  | some (v, relay) => if v = w then event.given relay else []
  | none => []

def Wire.transmit (w : ι) (event : Node.Event) (wire : Wire ι) : Option (Wire ι) :=
  (Pipe.pass (given w event (some wire.client)) (taken w event wire.server) wire.up).bind
    fun up =>
      (Pipe.pass (given w event wire.server) (taken w event (some wire.client)) wire.down).map
        fun down => { wire with up := up, down := down }

/-! ## Steps -/

section Steps

variable (mesh : Mesh ι) (s : State ι)

/-- A step of one sidecar, if the wires have the bytes that it takes. -/
def advance (w : ι) (event : Node.Event) : Option (State ι × List (Observation ι)) :=
  ((mesh.node w).step (s.nodes w) event).bind fun next =>
    (s.wires.mapM (Wire.transmit w event)).map fun wires =>
      ({ s with nodes := Function.update s.nodes w next.1, wires := wires },
        next.2.map fun o => (w, o))

/-- A stream over a link is opened and accepted by the events for it. -/
def State.routine (w : ι) : Node.Event → Bool
  | .outbound (.opened i true) =>
      match (s.nodes w).outbound.conns[i]? with
      | some (.routing _ (.opening _ tunnel)) =>
          !s.links.any fun link => link.client = w ∧ link.clientTls = tunnel.session
      | _ => true
  | .inbound (.acceptStream j) =>
      match (s.nodes w).inbound.conns[j]? with
      | some (.handling _ (.serving tls)) =>
          !s.links.any fun link => link.server = w ∧ link.serverTls = some tls.session
      | _ => true
  | _ => true

def State.addWire (wire : Wire ι) : State ι :=
  { s with wires := s.wires ++ [wire] }

/-- The client has finished its handshake.  A link that is not multiplexed is one wire. -/
def State.addLink (link : Link ι) (i : Nat) : State ι :=
  let linked := { s with links := s.links ++ [link] }
  if link.clientTls.negotiatedMux then linked
  else linked.addWire ⟨s.links.length, (link.client, .outbound i), none, [], []⟩

def State.acceptLink (l : Nat) (link : Link ι) (session : TlsSession) (j : Nat) : State ι :=
  { s with
    links := s.links.set l { link with serverTls := some session }
    wires := s.wires.map fun wire =>
      if wire.link = l ∧ session.negotiatedMux = false then
        { wire with server := some (link.server, .inbound j) }
      else wire }

def State.attach (m : Nat) (last : ι × Node.Relay) : State ι :=
  { s with wires := s.wires.modify m fun wire => { wire with server := some last } }

def connect (client : ι) (i : Nat) (server : ι) (handshake : Handshake) :
    Option (State ι × List (Observation ι)) :=
  let session := handshake.session (s.nodes client).outbound.sessions
  if session.identity mesh.parse = .ok (mesh.identity server) then
    (mesh.advance s client (.outbound (.handshaken i (.ok handshake)))).map fun next =>
      (next.1.addLink ⟨client, server, session, none⟩ i, next.2)
  else none

def accept (l j : Nat) (chain : List Der) (resumed : Bool) (link : Link ι) :
    Option (State ι × List (Observation ι)) :=
  let handshake : Handshake := ⟨some chain, link.clientTls.alpn, resumed⟩
  let session := handshake.session (s.nodes link.server).inbound.sessions
  if link.serverTls = none ∧ session.identity mesh.parse = .ok (mesh.identity link.client) then
    (mesh.advance s link.server (.inbound (.handshaken j (.ok handshake)))).map fun next =>
      (next.1.acceptLink l link session j, next.2)
  else none

def openStream (w : ι) (i l : Nat) : Option (State ι × List (Observation ι)) :=
  match s.links[l]?, (s.nodes w).outbound.conns[i]? with
  | some link, some (.routing _ (.opening _ tunnel)) =>
      if link.client = w ∧ link.clientTls = tunnel.session then
        (mesh.advance s w (.outbound (.opened i true))).map fun next =>
          (next.1.addWire ⟨l, (w, .outbound i), none, [], []⟩, next.2)
      else none
  | _, _ => none

def acceptStream (w : ι) (j m : Nat) : Option (State ι × List (Observation ι)) :=
  match s.wires[m]?, (s.nodes w).inbound.conns[j]? with
  | some wire, some (.handling _ (.serving tls)) =>
      if wire.server = none ∧ (s.links[wire.link]?.any fun link =>
          link.server = w ∧ link.serverTls = some tls.session) = true then
        (mesh.advance s w (.inbound (.acceptStream j))).map fun next =>
          (next.1.attach m (w, .stream (s.nodes w).inbound.streams.length), next.2)
      else none
  | _, _ => none

def step : Step (State ι) (Event ι) (Observation ι)
  | s, .node w event => if s.routine w event then mesh.advance s w event else none
  | s, .connect client i server chain alpn resumed =>
      mesh.connect s client i server ⟨some chain, alpn, resumed⟩
  | s, .accept l j chain resumed => s.links[l]?.bind (mesh.accept s l j chain resumed)
  | s, .openStream w i l => mesh.openStream s w i l
  | s, .acceptStream w j m => mesh.acceptStream s w j m

end Steps

/-! ## The view of one sidecar -/

def nodeTrace (w : ι) (trace : List (Observation ι)) : List Node.Observation :=
  trace.filterMap fun o => if o.1 = w then some o.2 else none

variable {mesh : Mesh ι} {s s' : State ι} {w : ι} {event : Node.Event} {e : Event ι}
  {trace out : List (Observation ι)} {events : List (Event ι)}

theorem nodeTrace_append (w : ι) (l r : List (Observation ι)) :
    nodeTrace w (l ++ r) = nodeTrace w l ++ nodeTrace w r :=
  List.filterMap_append

theorem nodeTrace_map (w v : ι) (out : List Node.Observation) :
    nodeTrace v (out.map fun o => (w, o)) = if w = v then out else [] := by
  rw [nodeTrace, List.filterMap_map]
  split
  next heq => simp [heq]
  next hne => simp [hne]

/-! ## The two ends of a wire -/

def written (trace : List (Observation ι)) : Option (ι × Node.Relay) → List UInt8
  | some (w, relay) => Node.payload relay relay.outgoing (nodeTrace w trace)
  | none => []

def handed (trace : List (Observation ι)) : Option (ι × Node.Relay) → List UInt8
  | some (w, relay) => Node.payload relay relay.incoming (nodeTrace w trace)
  | none => []

def held (nodes : ι → Node.State) : Option (ι × Node.Relay) → List UInt8
  | some (w, relay) => (nodes w).held relay
  | none => []

def Over (nodes : ι → Node.State) : Option (ι × Node.Relay) → Prop
  | some (w, relay) => (nodes w).Over relay
  | none => False

/-- The end is at the sidecar, is bound to the session, and has relayed over no other. -/
structure End (nodes : ι → Node.State) (trace : List (Observation ι)) (last : ι × Node.Relay)
    (w : ι) (session : TlsSession) : Prop where
  at_node : last.1 = w
  on : (nodes w).On session last.2
  relayed : ∀ o ∈ nodeTrace w trace, o.relay? = some last.2 →
    ∀ own, o.session? = some own → own = session

def Carried (nodes : ι → Node.State) (trace : List (Observation ι))
    (first last : Option (ι × Node.Relay)) (buffer : List UInt8) : Prop :=
  Pipe.Flow (written trace first) (handed trace last) (held nodes last) buffer (Over nodes last)

structure Advances (mesh : Mesh ι) (s : State ι) (w : ι) (event : Node.Event) (s' : State ι)
    (out : List (Observation ι)) : Prop where
  exists_step : ∃ next observed, (mesh.node w).step (s.nodes w) event = some (next, observed) ∧
    s'.nodes = Function.update s.nodes w next ∧ out = observed.map fun o => (w, o)
  links : s'.links = s.links
  wires : s.wires.mapM (Wire.transmit w event) = some s'.wires

theorem advances_of_advance (h : mesh.advance s w event = some (s', out)) :
    Advances mesh s w event s' out := by
  obtain ⟨⟨next, observed⟩, hstep, hmap⟩ := Option.bind_eq_some_iff.mp h
  obtain ⟨wires, hwires, heq⟩ := Option.map_eq_some_iff.mp hmap
  cases heq
  exact ⟨⟨next, observed, hstep, rfl, rfl⟩, rfl, hwires⟩

namespace Advances

theorem passes (h : Advances mesh s w event s' out) (last : ι × Node.Relay) :
    Node.Passes last.2 (s.nodes last.1) (given w event (some last)) (taken w event (some last))
      (s'.nodes last.1) (nodeTrace last.1 out) := by
  obtain ⟨next, observed, hstep, hnodes, rfl⟩ := h.exists_step
  obtain ⟨v, relay⟩ := last
  simp only [hnodes, nodeTrace_map, given, taken]
  by_cases hv : v = w
  · subst hv
    simpa using Node.step_passes hstep relay
  · rw [if_neg hv, if_neg hv, if_neg (Ne.symm hv), Function.update_of_ne hv]
    exact .of_eq (fun _ => .rfl) rfl .rfl .rfl (by simp)

theorem written_eq (h : Advances mesh s w event s' out) (first : Option (ι × Node.Relay)) :
    written (trace ++ out) first = written trace first ++ given w event first := by
  cases first with
  | none => rfl
  | some first =>
      have hwrites := (h.passes first).writes
      simp only [written, nodeTrace_append, Node.payload_append]
      rw [hwrites]

theorem carried (h : Advances mesh s w event s' out) {first last : Option (ι × Node.Relay)}
    {buffer rest : List UInt8} (hcarried : Carried s.nodes trace first last buffer)
    (hon : ∀ own, last = some own → ∃ session, (s.nodes own.1).On session own.2)
    (hpass : Pipe.pass (given w event first) (taken w event last) buffer = some rest) :
    Carried s'.nodes (trace ++ out) first last rest := by
  have happend := Pipe.append_eq_of_pass hpass
  rw [Carried, h.written_eq]
  cases last with
  | none =>
      change Pipe.Flow _ ([] ++ []) [] rest False
      exact hcarried.exchange happend (fun hover => ⟨hover, rfl⟩) (.inl rfl)
  | some last =>
      have hpasses := h.passes last
      obtain ⟨session, hsession⟩ := hon last rfl
      simp only [handed, nodeTrace_append, Node.payload_append]
      exact hcarried.exchange happend hpasses.ended (hpasses.hands session hsession)

theorem ends (h : Advances mesh s w event s' out) {last : ι × Node.Relay} {v : ι}
    {session : TlsSession} (hend : End s.nodes trace last v session) :
    End s'.nodes (trace ++ out) last v session := by
  obtain ⟨rfl, hon, hrelayed⟩ := hend
  have hpasses := h.passes last
  refine ⟨rfl, hpasses.on session hon, fun o hmem hrelay own hown => ?_⟩
  rw [nodeTrace_append] at hmem
  rcases List.mem_append.mp hmem with hold | hnew
  · exact hrelayed o hold hrelay own hown
  · exact (hpasses.relayed o hnew hrelay).2 session hon own hown

end Advances

/-! ## What holds of every link and every wire -/

private theorem map_eq_of_mapM {α β : Type} {f : α → Option β} {l : List α} {l' : List β}
    (h : l.mapM f = some l') : l.map f = l'.map some := by
  induction l generalizing l' with
  | nil =>
      cases h
      rfl
  | cons a l ih =>
      rw [List.mapM_cons] at h
      obtain ⟨b, hb, hrest⟩ := Option.bind_eq_some_iff.mp h
      obtain ⟨tail, htail, heq⟩ := Option.bind_eq_some_iff.mp hrest
      cases heq
      rw [List.map_cons, List.map_cons, hb, ih htail]

structure Linked (mesh : Mesh ι) (link : Link ι) : Prop where
  client : link.clientTls.identity mesh.parse = .ok (mesh.identity link.server)
  server : ∀ session, link.serverTls = some session →
    session.identity mesh.parse = .ok (mesh.identity link.client)

structure Wired (nodes : ι → Node.State) (trace : List (Observation ι)) (link : Link ι)
    (wire : Wire ι) : Prop where
  conn : ∃ i, wire.client.2 = .outbound i
  client : End nodes trace wire.client link.client link.clientTls
  server : ∀ last, wire.server = some last → last.2.incoming = .toUpstream ∧
    ∃ session, link.serverTls = some session ∧ End nodes trace last link.server session
  up : Carried nodes trace (some wire.client) wire.server wire.up
  down : Carried nodes trace wire.server (some wire.client) wire.down

structure Inv (mesh : Mesh ι) (trace : List (Observation ι)) (s : State ι) : Prop where
  runs : ∀ w, ∃ events, (mesh.node w).step.exec
    ((mesh.node w).initial mesh.parse (mesh.policy w)) events = some (s.nodes w, nodeTrace w trace)
  links : ∀ link ∈ s.links, Linked mesh link
  wires : ∀ wire ∈ s.wires, ∃ link, s.links[wire.link]? = some link ∧ Wired s.nodes trace link wire

theorem transmit_eq_some {wire wire' : Wire ι} (h : wire.transmit w event = some wire') :
    ∃ up down,
      Pipe.pass (given w event (some wire.client)) (taken w event wire.server) wire.up =
        some up ∧
      Pipe.pass (given w event wire.server) (taken w event (some wire.client)) wire.down =
        some down ∧
      wire' = { wire with up := up, down := down } := by
  obtain ⟨up, hup, hmap⟩ := Option.bind_eq_some_iff.mp h
  obtain ⟨down, hdown, rfl⟩ := Option.map_eq_some_iff.mp hmap
  exact ⟨up, down, hup, hdown, rfl⟩

theorem Advances.wired (h : Advances mesh s w event s' out) {link : Link ι} {wire wire' : Wire ι}
    (hwired : Wired s.nodes trace link wire) (htransmit : wire.transmit w event = some wire') :
    Wired s'.nodes (trace ++ out) link wire' := by
  obtain ⟨up, down, hup, hdown, rfl⟩ := transmit_eq_some htransmit
  refine ⟨hwired.conn, h.ends hwired.client, ?_, ?_, ?_⟩
  · intro last hlast
    obtain ⟨hincoming, session, hsession, hend⟩ := hwired.server last hlast
    exact ⟨hincoming, session, hsession, h.ends hend⟩
  · refine h.carried hwired.up (fun own hown => ?_) hup
    obtain ⟨-, session, -, hend⟩ := hwired.server own hown
    exact ⟨session, hend.at_node ▸ hend.on⟩
  · refine h.carried hwired.down (fun own hown => ?_) hdown
    cases hown
    exact ⟨link.clientTls, hwired.client.at_node ▸ hwired.client.on⟩

theorem Advances.getElem?_wires (h : Advances mesh s w event s' out) {m : Nat} {wire : Wire ι}
    (hwire : s.wires[m]? = some wire) :
    ∃ up down, s'.wires[m]? = some { wire with up := up, down := down } := by
  have hget := congrArg (fun l => l[m]?) (map_eq_of_mapM h.wires)
  simp only [List.getElem?_map, hwire, Option.map_some] at hget
  obtain ⟨wire', hwire', htransmit⟩ := Option.map_eq_some_iff.mp hget.symm
  obtain ⟨up, down, -, -, rfl⟩ := transmit_eq_some htransmit.symm
  exact ⟨up, down, hwire'⟩

theorem Advances.inv (h : Advances mesh s w event s' out) (hinv : Inv mesh trace s) :
    Inv mesh (trace ++ out) s' := by
  refine ⟨fun v => ?_, ?_, fun wire' hmem => ?_⟩
  · obtain ⟨next, observed, hstep, hnodes, rfl⟩ := h.exists_step
    obtain ⟨events, hrun⟩ := hinv.runs v
    rw [nodeTrace_append, nodeTrace_map, hnodes]
    by_cases hv : w = v
    · subst hv
      rw [if_pos rfl, Function.update_self]
      exact ⟨events ++ [event], Step.exec_append hrun (Step.exec_single hstep)⟩
    · rw [if_neg hv, List.append_nil, Function.update_of_ne (Ne.symm hv)]
      exact ⟨events, hrun⟩
  · rw [h.links]
    exact hinv.links
  · have hsome : some wire' ∈ s.wires.map (Wire.transmit w event) := by
      rw [map_eq_of_mapM h.wires]
      exact List.mem_map_of_mem hmem
    obtain ⟨wire, hwire, htransmit⟩ := List.mem_map.mp hsome
    obtain ⟨link, hlink, hwired⟩ := hinv.wires wire hwire
    obtain ⟨up, down, -, -, heq⟩ := transmit_eq_some htransmit
    refine ⟨link, ?_, h.wired hwired htransmit⟩
    rw [h.links, heq]
    exact hlink

/-! ### New links and new ends -/

def Fresh (trace : List (Observation ι)) (last : ι × Node.Relay) : Prop :=
  ∀ o ∈ nodeTrace last.1 trace, o.relay? ≠ some last.2

theorem Fresh.written {last : ι × Node.Relay} (h : Fresh trace last) :
    written trace (some last) = [] :=
  Node.payload_eq_nil h

theorem Fresh.handed {last : ι × Node.Relay} (h : Fresh trace last) :
    handed trace (some last) = [] :=
  Node.payload_eq_nil h

theorem Fresh.ends {last : ι × Node.Relay} {session : TlsSession} (h : Fresh trace last)
    (hon : (s.nodes last.1).On session last.2) : End s.nodes trace last last.1 session :=
  ⟨rfl, hon, fun o hmem hrelay => absurd hrelay (h o hmem)⟩

theorem Inv.began (h : Inv mesh trace s) {o : Node.Observation} {relay : Node.Relay}
    (hmem : o ∈ nodeTrace w trace) (hrelay : o.relay? = some relay) :
    (s.nodes w).Began relay := by
  obtain ⟨events, hrun⟩ := h.runs w
  exact Node.began_of_run hrun o hmem relay hrelay

theorem Inv.fresh (h : Inv mesh trace s) {last : ι × Node.Relay}
    (hbegan : ¬ (s.nodes last.1).Began last.2) : Fresh trace last :=
  fun _ hmem hrelay => hbegan (h.began hmem hrelay)

theorem Inv.addWire (h : Inv mesh trace s) {l i : Nat} {link : Link ι}
    (hlink : s.links[l]? = some link) (hfresh : Fresh trace (link.client, .outbound i))
    (hon : (s.nodes link.client).On link.clientTls (.outbound i)) :
    Inv mesh trace (s.addWire ⟨l, (link.client, .outbound i), none, [], []⟩) := by
  refine ⟨h.runs, h.links, fun wire hmem => ?_⟩
  rcases List.mem_append.mp hmem with hold | hnew
  · exact h.wires wire hold
  · rw [List.mem_singleton.mp hnew]
    refine ⟨link, hlink, ⟨i, rfl⟩, hfresh.ends hon, nofun, ?_, ?_⟩
    · rw [Carried, hfresh.written]
      exact .empty _
    · rw [Carried, hfresh.handed]
      exact .empty _

theorem Inv.addLink (h : Inv mesh trace s) {link : Link ι} {i : Nat} (hlinked : Linked mesh link)
    (hfresh : Fresh trace (link.client, .outbound i))
    (hon : link.clientTls.negotiatedMux = false →
      (s.nodes link.client).On link.clientTls (.outbound i)) :
    Inv mesh trace (s.addLink link i) := by
  have hinv : Inv mesh trace { s with links := s.links ++ [link] } := by
    refine ⟨h.runs, Tasks.forall_mem_append h.links hlinked, fun wire hmem => ?_⟩
    obtain ⟨old, hold, hwired⟩ := h.wires wire hmem
    exact ⟨old, Tasks.getElem?_append_of hold _, hwired⟩
  unfold State.addLink
  cases hmux : link.clientTls.negotiatedMux with
  | true => exact hinv
  | false => exact hinv.addWire (by simp) hfresh (hon hmux)

theorem Wired.attach {nodes : ι → Node.State} {link link' : Link ι} {wire : Wire ι}
    {last : ι × Node.Relay} {session : TlsSession} (h : Wired nodes trace link wire)
    (hnone : wire.server = none) (hclient : link'.client = link.client)
    (hclientTls : link'.clientTls = link.clientTls) (hserverTls : link'.serverTls = some session)
    (hincoming : last.2.incoming = .toUpstream) (hfresh : Fresh trace last)
    (hend : End nodes trace last link'.server session) (hheld : held nodes (some last) = []) :
    Wired nodes trace link' { wire with server := some last } := by
  have hup := h.up
  have hdown := h.down
  rw [hnone] at hup hdown
  refine ⟨h.conn, ?_, ?_, ?_, ?_⟩
  · rw [hclient, hclientTls]
    exact h.client
  · rintro other ⟨⟩
    exact ⟨hincoming, session, hserverTls, hend⟩
  · refine .inl ?_
    rw [hfresh.handed, hheld]
    rcases hup with hup | ⟨hover, -⟩
    · exact hup
    · cases hover
  · rw [Carried, hfresh.written]
    exact hdown

theorem Inv.acceptLink (h : Inv mesh trace s) {l j : Nat} {link : Link ι} {session : TlsSession}
    (hlink : s.links[l]? = some link) (hnone : link.serverTls = none)
    (hidentity : session.identity mesh.parse = .ok (mesh.identity link.client))
    (hfresh : Fresh trace (link.server, .inbound j))
    (hon : (s.nodes link.server).On session (.inbound j))
    (hheld : held s.nodes (some (link.server, .inbound j)) = []) :
    Inv mesh trace (s.acceptLink l link session j) := by
  have hlinked := h.links link (List.mem_of_getElem? hlink)
  refine ⟨h.runs, Tasks.forall_mem_set h.links ⟨hlinked.client, ?_⟩, fun wire' hmem => ?_⟩
  · rintro other ⟨⟩
    exact hidentity
  · obtain ⟨wire, hwire, heq⟩ := List.mem_map.mp hmem
    obtain ⟨own, hown, hwired⟩ := h.wires wire hwire
    by_cases hl : wire.link = l
    · subst hl
      cases hlink.symm.trans hown
      have hserver : wire.server = none := by
        by_contra hne
        obtain ⟨last, hlast⟩ := Option.ne_none_iff_exists'.mp hne
        obtain ⟨-, other, hother, -⟩ := hwired.server last hlast
        cases hnone.symm.trans hother
      refine ⟨{ link with serverTls := some session }, ?_, ?_⟩
      · subst heq
        split <;> exact Tasks.getElem?_set_of hlink _
      · subst heq
        split
        next => exact hwired.attach hserver rfl rfl rfl rfl hfresh (hfresh.ends hon) hheld
        next => exact ⟨hwired.conn, hwired.client, by simp [hserver], hwired.up, hwired.down⟩
    · rw [if_neg fun hand => hl hand.1] at heq
      subst heq
      exact ⟨own, (List.getElem?_set_ne (Ne.symm hl)).trans hown, hwired⟩

theorem Inv.attach (h : Inv mesh trace s) {m : Nat} {wire : Wire ι} {link : Link ι} {k : Nat}
    {session : TlsSession} (hwire : s.wires[m]? = some wire) (hnone : wire.server = none)
    (hlink : s.links[wire.link]? = some link) (hserverTls : link.serverTls = some session)
    (hfresh : Fresh trace (link.server, .stream k))
    (hon : (s.nodes link.server).On session (.stream k)) :
    Inv mesh trace (s.attach m (link.server, .stream k)) := by
  refine ⟨h.runs, h.links, fun wire' hmem => ?_⟩
  obtain ⟨n, hn⟩ := List.getElem?_of_mem hmem
  simp only [State.attach, List.getElem?_modify] at hn
  obtain ⟨old, hold, rfl⟩ := Option.map_eq_some_iff.mp hn
  obtain ⟨own, hown, hwired⟩ := h.wires old (List.mem_of_getElem? hold)
  by_cases hmn : m = n
  · subst hmn
    cases hwire.symm.trans hold
    cases hlink.symm.trans hown
    rw [if_pos rfl]
    exact ⟨link, hlink,
      hwired.attach hnone rfl rfl hserverTls rfl hfresh (hfresh.ends hon) rfl⟩
  · rw [if_neg hmn]
    exact ⟨own, hown, hwired⟩

/-! ### Steps -/

theorem Advances.node_step (h : Advances mesh s w event s' out) :
    ∃ observed, (mesh.node w).step (s.nodes w) event = some (s'.nodes w, observed) ∧
      nodeTrace w out = observed := by
  obtain ⟨next, observed, hstep, hnodes, rfl⟩ := h.exists_step
  rw [hnodes, Function.update_self, nodeTrace_map, if_pos rfl]
  exact ⟨observed, hstep, rfl⟩

theorem Inv.connect (h : Inv mesh trace s) {client server : ι} {i : Nat} {handshake : Handshake}
    (hstep : mesh.connect s client i server handshake = some (s', out)) :
    Inv mesh (trace ++ out) s' := by
  simp only [Mesh.connect, Option.ite_none_right_eq_some] at hstep
  obtain ⟨hidentity, hmap⟩ := hstep
  obtain ⟨⟨next, out⟩, hadvance, heq⟩ := Option.map_eq_some_iff.mp hmap
  cases heq
  have hadvances := advances_of_advance hadvance
  obtain ⟨observed, hnode, -⟩ := hadvances.node_step
  obtain ⟨_, houtbound, -⟩ := Node.step_outbound hnode
  obtain ⟨addr, locked, hi⟩ := OutboundProxy.step_handshaken houtbound
  refine (hadvances.inv h).addLink ⟨hidentity, nofun⟩ ?_ ?_
  · refine (hadvances.inv h).fresh ?_
    rintro ⟨conn, hconn, hbegan⟩
    cases hi.symm.trans hconn
    exact hbegan
  · intro hmux
    exact ⟨_, hi, rfl, hmux⟩

theorem Inv.accept (h : Inv mesh trace s) {l j : Nat} {chain : List Der} {resumed : Bool}
    {link : Link ι} (hlink : s.links[l]? = some link)
    (hstep : mesh.accept s l j chain resumed link = some (s', out)) :
    Inv mesh (trace ++ out) s' := by
  simp only [Mesh.accept, Option.ite_none_right_eq_some] at hstep
  obtain ⟨⟨hnone, hidentity⟩, hmap⟩ := hstep
  obtain ⟨⟨next, out⟩, hadvance, heq⟩ := Option.map_eq_some_iff.mp hmap
  cases heq
  have hadvances := advances_of_advance hadvance
  obtain ⟨observed, hnode, -⟩ := hadvances.node_step
  obtain ⟨_, hinbound, -⟩ := Node.step_inbound hnode
  obtain ⟨addr, dialed, hj⟩ := TcpProxy.step_handshaken hinbound
  refine (hadvances.inv h).acceptLink (by rw [hadvances.links, hlink]) hnone hidentity ?_ ?_ ?_
  · refine (hadvances.inv h).fresh ?_
    rintro ⟨conn, hconn, hbegan⟩
    cases hj.symm.trans hconn
    exact hbegan
  · exact ⟨_, hj, rfl⟩
  · simp [held, Node.State.held, hj, TcpProxy.Conn.held]

theorem Inv.openStream (h : Inv mesh trace s) {i l : Nat}
    (hstep : mesh.openStream s w i l = some (s', out)) : Inv mesh (trace ++ out) s' := by
  unfold Mesh.openStream at hstep
  split at hstep
  next link addr origin tunnel hlink hi =>
    simp only [Option.ite_none_right_eq_some] at hstep
    obtain ⟨⟨rfl, htls⟩, hmap⟩ := hstep
    obtain ⟨⟨next, out⟩, hadvance, heq⟩ := Option.map_eq_some_iff.mp hmap
    cases heq
    have hadvances := advances_of_advance hadvance
    obtain ⟨observed, hnode, -⟩ := hadvances.node_step
    obtain ⟨_, houtbound, -⟩ := Node.step_outbound hnode
    obtain ⟨conn, hconn, hsettled, hnot⟩ := OutboundProxy.step_opened hi houtbound
    refine (hadvances.inv h).addWire (by rw [hadvances.links, hlink]) ?_ ?_
    · refine (hadvances.inv h).fresh ?_
      rintro ⟨other, hother, hbegan⟩
      cases hconn.symm.trans hother
      exact hnot hbegan
    · exact ⟨conn, hconn, htls ▸ hsettled⟩
  next => cases hstep

theorem Inv.acceptStream (h : Inv mesh trace s) {j m : Nat}
    (hstep : mesh.acceptStream s w j m = some (s', out)) : Inv mesh (trace ++ out) s' := by
  unfold Mesh.acceptStream at hstep
  split at hstep
  next wire addr tls hwire hj =>
    simp only [Option.ite_none_right_eq_some] at hstep
    obtain ⟨⟨hnone, hany⟩, hmap⟩ := hstep
    obtain ⟨link, hlink, hcheck⟩ := (Option.any_eq_true _ _).mp hany
    obtain ⟨rfl, hserverTls⟩ : _ ∧ _ := by simpa using hcheck
    obtain ⟨⟨next, out⟩, hadvance, heq⟩ := Option.map_eq_some_iff.mp hmap
    cases heq
    have hadvances := advances_of_advance hadvance
    obtain ⟨observed, hnode, hout⟩ := hadvances.node_step
    obtain ⟨_, hinbound, rfl⟩ := Node.step_inbound hnode
    obtain ⟨hstreams, rfl⟩ := TcpProxy.step_acceptStream hj hinbound
    obtain ⟨up, down, hwire'⟩ := hadvances.getElem?_wires hwire
    refine (hadvances.inv h).attach hwire' hnone (by rw [hadvances.links]; exact hlink) hserverTls
      ?_ ?_
    · intro o hmem hrelay
      rw [nodeTrace_append, hout] at hmem
      rcases List.mem_append.mp hmem with hold | hnew
      · exact absurd (h.began hold hrelay) (Nat.lt_irrefl _)
      · simp at hnew
        rcases hnew with rfl | rfl <;> cases hrelay
    · exact ⟨⟨j, tls, addr, .spawned⟩, by simp [hstreams], rfl⟩
  next => cases hstep

theorem Inv.step (h : Inv mesh trace s) (hstep : mesh.step s e = some (s', out)) :
    Inv mesh (trace ++ out) s' := by
  cases e with
  | node w event =>
      simp only [Mesh.step, Option.ite_none_right_eq_some] at hstep
      exact (advances_of_advance hstep.2).inv h
  | connect client i server chain alpn resumed => exact h.connect hstep
  | accept l j chain resumed =>
      obtain ⟨link, hlink, haccept⟩ := Option.bind_eq_some_iff.mp hstep
      exact h.accept hlink haccept
  | openStream w i l => exact h.openStream hstep
  | acceptStream w j m => exact h.acceptStream hstep

theorem Inv.initial (mesh : Mesh ι) : Inv mesh [] mesh.initial :=
  ⟨fun _ => ⟨[], rfl⟩, nofun, nofun⟩

theorem inv_of_run (hrun : mesh.step.exec mesh.initial events = some (s, trace)) :
    Inv mesh trace s :=
  mesh.step.invariant (fun h hstep => h.step hstep) (.initial mesh) hrun

/-! ## End to end -/

/--
The client's policy and the server's policy have both allowed the one workload to call the
other.
-/
def BothAllowed (mesh : Mesh ι) (trace : List (Observation ι)) (client server : ι) (i : Nat) :
    Prop :=
  .outbound (.evaluated i (mesh.identity client) (mesh.identity server) .allow) ∈
      nodeTrace client trace ∧
    ∃ j, .inbound (.evaluated j (mesh.identity client) (mesh.identity server) .allow) ∈
      nodeTrace server trace

private theorem mem_of_mem_outboundTrace {observed : List Node.Observation}
    {o : OutboundProxy.Observation} (h : o ∈ Node.outboundTrace observed) :
    .outbound o ∈ observed := by
  obtain ⟨own, hmem, heq⟩ := List.mem_filterMap.mp h
  cases own <;> cases heq
  exact hmem

private theorem mem_of_mem_inboundTrace {observed : List Node.Observation}
    {o : TcpProxy.Observation} (h : o ∈ Node.inboundTrace observed) :
    .inbound o ∈ observed := by
  obtain ⟨own, hmem, heq⟩ := List.mem_filterMap.mp h
  cases own <;> cases heq
  exact hmem

theorem Inv.authorized (h : Inv mesh trace s) (w : ι) :
    Node.Authorized (mesh.node w) mesh.parse (nodeTrace w trace) (s.nodes w) := by
  obtain ⟨events, hrun⟩ := h.runs w
  exact Step.invariant (fun h hstep => h.step (Node.step_change hstep)) (.initial _ _ _) hrun

theorem Inv.client_allowed (h : Inv mesh trace s) {i : Nat} {session : TlsSession} {id : SpiffeId}
    (hend : End s.nodes trace (w, .outbound i) w session)
    (hidentity : session.identity mesh.parse = .ok id)
    (hrelayed : ∃ o ∈ nodeTrace w trace, o.relay? = some (.outbound i)) :
    .outbound (.evaluated i (mesh.identity w) id .allow) ∈ nodeTrace w trace := by
  obtain ⟨o, hmem, hrelay⟩ := hrelayed
  obtain ⟨before, after, heq⟩ := List.append_of_mem hmem
  have hsession := hend.relayed o hmem hrelay
  cases o with
  | inbound o =>
      cases o with
      | relayed j stream => cases stream <;> cases hrelay
      | _ => cases hrelay
  | outbound o =>
      cases o with
      | relayed j route direction data =>
          obtain rfl : j = i := by simpa [Node.Observation.relay?] using hrelay
          have hrelays := (h.authorized w).outbound.relays (Node.outboundTrace before)
            (.relayed j route direction data) (Node.outboundTrace after)
            (by rw [heq, Node.outboundTrace_append]; rfl)
          obtain ⟨addr, own, peer, hown, hpeer, first, call, rest, last, hbefore, -, -⟩ := hrelays
          obtain rfl := hsession own hown
          cases hidentity.symm.trans hpeer
          rw [heq]
          refine List.mem_append_left _ (mem_of_mem_outboundTrace ?_)
          rw [hbefore, mesh.outbound_localId]
          simp
      | _ => cases hrelay

theorem Inv.server_allowed (h : Inv mesh trace s) {relay : Node.Relay} {session : TlsSession}
    {id : SpiffeId} (hend : End s.nodes trace (w, relay) w session)
    (hincoming : relay.incoming = .toUpstream)
    (hidentity : session.identity mesh.parse = .ok id)
    (hrelayed : ∃ o ∈ nodeTrace w trace, o.relay? = some relay) :
    ∃ j, .inbound (.evaluated j id (mesh.identity w) .allow) ∈ nodeTrace w trace := by
  obtain ⟨o, hmem, hrelay⟩ := hrelayed
  obtain ⟨before, after, heq⟩ := List.append_of_mem hmem
  have hsession := hend.relayed o hmem hrelay
  cases o with
  | outbound o =>
      cases o with
      | relayed i route direction data =>
          cases hrelay
          cases hincoming
      | _ => cases hrelay
  | inbound o =>
      cases o with
      | relayed j stream tls direction data =>
          obtain ⟨hgenuine, hallowed⟩ := (h.authorized w).inbound.relays (Node.inboundTrace before)
            (.relayed j stream tls direction data) (Node.inboundTrace after)
            (by rw [heq, Node.inboundTrace_append]; rfl)
          have hown : tls.session = session := hsession tls.session rfl
          rw [TlsStream.Genuine, hown] at hgenuine
          cases hidentity.symm.trans hgenuine
          rw [mesh.inbound_localId] at hallowed
          refine ⟨j, ?_⟩
          rw [heq]
          exact List.mem_append_left _ (mem_of_mem_inboundTrace hallowed)
      | _ => cases hrelay

theorem Inv.end_to_end (hinv : Inv mesh trace s) {wire : Wire ι} {last : ι × Node.Relay}
    (hwire : wire ∈ s.wires) (hserver : wire.server = some last) :
    ∃ i, wire.client.2 = .outbound i ∧
      Node.payload last.2 .toUpstream (nodeTrace last.1 trace) <+:
        Node.payload (.outbound i) .toUpstream (nodeTrace wire.client.1 trace) ∧
      Node.payload (.outbound i) .toClient (nodeTrace wire.client.1 trace) <+:
        Node.payload last.2 .toClient (nodeTrace last.1 trace) ∧
      (Node.payload last.2 .toUpstream (nodeTrace last.1 trace) ≠ [] ∨
          Node.payload (.outbound i) .toClient (nodeTrace wire.client.1 trace) ≠ [] →
        BothAllowed mesh trace wire.client.1 last.1 i) := by
  obtain ⟨link, hlink, hwired⟩ := hinv.wires wire hwire
  have hlinked := hinv.links link (List.mem_of_getElem? hlink)
  obtain ⟨l, ⟨client, relay⟩, server, up, down⟩ := wire
  obtain ⟨i, hi⟩ := hwired.conn
  cases hi
  cases hserver
  obtain ⟨hincoming, session, hsession, hend⟩ := hwired.server last rfl
  have houtgoing : last.2.outgoing = .toClient := by
    cases hlast : last.2 with
    | outbound i =>
        rw [hlast] at hincoming
        cases hincoming
    | _ => rfl
  have hup := hwired.up.isPrefix
  have hdown := hwired.down.isPrefix
  simp only [handed, written, hincoming, houtgoing] at hup hdown
  refine ⟨i, rfl, hup, hdown, fun hnonempty => ?_⟩
  -- a byte that has arrived was relayed at both ends
  obtain ⟨hsent, hreplied⟩ : (∃ o ∈ nodeTrace client trace, o.relay? = some (.outbound i)) ∧
      ∃ o ∈ nodeTrace last.1 trace, o.relay? = some last.2 := by
    rcases hnonempty with hne | hne
    · exact ⟨Node.exists_of_payload_ne_nil fun hnil => hne (List.prefix_nil.mp (hnil ▸ hup)),
        Node.exists_of_payload_ne_nil hne⟩
    · exact ⟨Node.exists_of_payload_ne_nil hne,
        Node.exists_of_payload_ne_nil fun hnil => hne (List.prefix_nil.mp (hnil ▸ hdown))⟩
  have hclient := hwired.client
  obtain rfl : client = link.client := hclient.at_node
  obtain ⟨server, relay⟩ := last
  obtain rfl : server = link.server := hend.at_node
  exact ⟨hinv.client_allowed hclient hlinked.client hsent,
    hinv.server_allowed hend hincoming (hlinked.server session hsession) hreplied⟩

/--
Over every wire whose server end is known, the upstream of the server gets an initial part
of what the application of the client has sent, and the application gets an initial part of
what the upstream has replied.  Once a byte has arrived on either side, both policies have
allowed the identity of the client to call the identity of the server.
-/
theorem wire_end_to_end (hrun : mesh.step.exec mesh.initial events = some (s, trace))
    {wire : Wire ι} {last : ι × Node.Relay} (hwire : wire ∈ s.wires)
    (hserver : wire.server = some last) :
    ∃ i, wire.client.2 = .outbound i ∧
      Node.payload last.2 .toUpstream (nodeTrace last.1 trace) <+:
        Node.payload (.outbound i) .toUpstream (nodeTrace wire.client.1 trace) ∧
      Node.payload (.outbound i) .toClient (nodeTrace wire.client.1 trace) <+:
        Node.payload last.2 .toClient (nodeTrace last.1 trace) ∧
      (Node.payload last.2 .toUpstream (nodeTrace last.1 trace) ≠ [] ∨
          Node.payload (.outbound i) .toClient (nodeTrace wire.client.1 trace) ≠ [] →
        BothAllowed mesh trace wire.client.1 last.1 i) := by
  have hinv := inv_of_run hrun
  exact hinv.end_to_end hwire hserver

namespace Example

open Node.Example

def replicas : Mesh Bool where
  parse := readSvid
  identity _ := workload
  node _ := sidecar
  policy _ := allowAny
  outbound_localId _ := rfl
  inbound_localId _ := rfl

def outbound (n : Nat) : List (Event Bool) :=
  List.replicate n (.node false (.outbound (.run 0)))

def inbound (n : Nat) : List (Event Bool) :=
  List.replicate n (.node true (.inbound (.run 0)))

/--
The first replica connects to the second and is done with its own checks, the second has
yet to make its checks.
-/
def linked : List (Event Bool) :=
  [.node false (.outbound (.accept none)), .node true (.inbound (.accept none))] ++
    outbound 8 ++ inbound 3 ++
    [.connect false 0 true [svid] none false, .accept 0 0 [svid] false,
      .node true (.inbound (.dialed 0 true))] ++ outbound 6

private def exchange : List (Event Bool) :=
  [.node false (.outbound (.relay 0 .toUpstream [0x68, 0x69])),
    .node true (.inbound (.read 0 (some [0x68]))),
    .node true (.inbound (.written 0 1 true)),
    .node true (.inbound (.relay 0 .toUpstream [0x69])),
    .node true (.inbound (.relay 0 .toClient [0x6f])),
    .node false (.outbound (.relay 0 .toClient [0x6f]))]

/--
The call is relayed one to one: two bytes there, the second of them after the detection
read, and one byte back.
-/
private def callReplica : List (Event Bool) :=
  linked ++ inbound 5 ++ exchange

end Example

open Example in
theorem callReplica_end_to_end :
    ∃ final wire, replicas.step.exec replicas.initial callReplica = some final ∧
      wire ∈ final.1.wires ∧ wire.server = some (true, .inbound 0) ∧
      Node.payload (.inbound 0) .toUpstream (nodeTrace true final.2) = [0x68, 0x69] ∧
      BothAllowed replicas final.2 wire.client.1 true 0 := by
  have hfinal : (replicas.step.exec replicas.initial callReplica).any (fun final =>
      final.1.wires = [⟨0, (false, .outbound 0), some (true, .inbound 0), [], []⟩] &&
        Node.payload (.inbound 0) .toUpstream (nodeTrace true final.2) = [0x68, 0x69]) =
          true := by
    decide +kernel
  obtain ⟨final, hrun, hcheck⟩ := (Option.any_eq_true _ _).mp hfinal
  simp only [Bool.and_eq_true, decide_eq_true_eq] at hcheck
  obtain ⟨hwires, hpayload⟩ := hcheck
  have hmem : ⟨0, (false, .outbound 0), some (true, .inbound 0), [], []⟩ ∈ final.1.wires := by
    simp [hwires]
  obtain ⟨i, hi, -, -, hallowed⟩ := wire_end_to_end hrun hmem rfl
  cases hi
  exact ⟨final, _, hrun, hmem, rfl, hpayload, hallowed (.inl (by simp [hpayload]))⟩

end Mesh

end Interlink
