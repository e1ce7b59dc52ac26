import Interlink.Foundation.Trace
import Interlink.Proxy.InboundMoves

/-!
# Inbound bytes are authorized

A connection relays, itself or through the streams of its tunnel, only after the
policy has allowed the peer of its session.
-/

namespace Interlink.TcpProxy

open Interlink.Foundation

/-! ## What each point of a connection has established -/

/-- The session is the connection's, its peer is known, and the policy has allowed it. -/
def Authorized (parse : X509Parser) (localId : SpiffeId) (i : Nat) (tls : TlsStream)
    (trace : List Observation) : Prop :=
  tls.Genuine parse ∧ .evaluated i tls.peerIdentity localId .allow ∈ trace

def Justified (parse : X509Parser) (localId : SpiffeId) (trace : List Observation)
    (i : Nat) : Pc → Prop
  | .joining (.caching leafDer tls) _ =>
      tls.Genuine parse ∧ spiffeIdFromCertDer parse leafDer = .ok tls.peerIdentity
  | .joining (.done (some tls)) _ | .evaluating tls | .evaluatingGlobal tls =>
      tls.Genuine parse
  | .serving tls | .detecting tls | .forwarding tls _ | .relaying tls =>
      Authorized parse localId i tls trace
  | _ => True

def RelayAuthorized (parse : X509Parser) (localId : SpiffeId) (before : List Observation) :
    Observation → Prop
  | .relayed i _ tls _ _ => Authorized parse localId i tls before
  | _ => True

structure Invariant (parse : X509Parser) (localId : SpiffeId) (trace : List Observation)
    (s : State) : Prop where
  conns : ∀ (i : Nat) (addr : SocketAddr) (pc : Pc),
    s.conns[i]? = some (.handling addr pc) → Justified parse localId trace i pc
  streams : ∀ stream ∈ s.streams, Authorized parse localId stream.conn stream.tls trace
  relays : Preceded (RelayAuthorized parse localId) trace

variable {parse : X509Parser} {localId : SpiffeId} {trace : List Observation} {i : Nat}

theorem Authorized.append {tls : TlsStream} (h : Authorized parse localId i tls trace)
    (out : List Observation) : Authorized parse localId i tls (trace ++ out) :=
  ⟨h.1, List.mem_append_left out h.2⟩

theorem Justified.append {pc : Pc} (h : Justified parse localId trace i pc)
    (out : List Observation) : Justified parse localId (trace ++ out) i pc := by
  cases pc with
  | joining accepting dialed =>
      cases accepting with
      | done tls => cases tls <;> exact h
      | _ => exact h
  | evaluating tls => exact h
  | evaluatingGlobal tls => exact h
  | serving tls => exact Authorized.append h out
  | detecting tls => exact Authorized.append h out
  | forwarding tls data => exact Authorized.append h out
  | relaying tls => exact Authorized.append h out

/-! ## Steps keep it -/

variable {proxy : TcpProxy} {shared shared' : Shared} {s s' : State} {addr : SocketAddr}
  {pc : Pc} {effect : Effect} {conn : Conn} {e : Event} {out : List Observation}

theorem justified_decided {tls : TlsStream} {decision : Decision} {next : Pc}
    {rest : List Observation} (hgenuine : tls.Genuine parse)
    (hconn : (decided addr tls decision).1 = .handling addr next) :
    Justified parse localId
      (trace ++ ([.evaluated i tls.peerIdentity localId decision,
        .metric (.policy decision)] ++ rest)) i next := by
  cases decision with
  | allow =>
      have hauthorized : Authorized parse localId i tls
          (trace ++ ([.evaluated i tls.peerIdentity localId .allow,
            .metric (.policy .allow)] ++ rest)) := ⟨hgenuine, by simp⟩
      simp only [decided] at hconn
      split at hconn <;> cases hconn <;> exact hauthorized
  | deny reason => cases hconn

theorem decided_handling {tls : TlsStream} {decision : Decision} {other : SocketAddr}
    {next : Pc} (hconn : (decided addr tls decision).1 = .handling other next) :
    other = addr := by
  cases decision with
  | allow =>
      simp only [decided] at hconn
      split at hconn <;> cases hconn <;> rfl
  | deny reason => cases hconn

theorem Move.handling_eq (h : Move proxy shared s i addr pc effect conn out)
    {other : SocketAddr} {next : Pc} (hconn : conn = .handling other next) : other = addr := by
  cases h
  case decideNamespace => exact decided_handling hconn
  case decideGlobal => exact decided_handling hconn
  all_goals cases hconn
  all_goals rfl

theorem Move.justified (h : Move proxy shared s i addr pc effect conn out) {next : Pc}
    (hconn : conn = .handling addr next)
    (hcache : shared.identityCache.Sound shared.parse)
    (hpc : Justified shared.parse proxy.localId trace i pc) :
    Justified shared.parse proxy.localId (trace ++ out) i next := by
  cases h
  case decideNamespace => exact justified_decided hpc hconn
  case decideGlobal => exact justified_decided hpc hconn
  all_goals cases hconn
  case handshake => trivial
  case handshakeError => trivial
  case identify hfound => exact identity_of_cached hcache hfound
  case parse hfound => exact (identity_of_parsed hfound).symm
  case identifyError => trivial
  case cache => exact hpc.1
  case dial accepting ok =>
    cases accepting with
    | done tls => cases tls <;> exact hpc
    | _ => exact hpc
  case joined => exact hpc
  case scan => exact hpc
  case read => exact Authorized.append hpc _
  case write => exact Authorized.append hpc _
  case relay => exact Authorized.append hpc _
  case acceptStream => exact Authorized.append hpc _

theorem Move.relayAuthorized (h : Move proxy shared s i addr pc effect conn out)
    (hpc : Justified shared.parse proxy.localId trace i pc)
    (hrelays : Preceded (RelayAuthorized shared.parse proxy.localId) trace) :
    Preceded (RelayAuthorized shared.parse proxy.localId) (trace ++ out) := by
  refine hrelays.append fun before o after hout => ?_
  cases o with
  | relayed k stream tls direction data =>
      have hmem : .relayed k stream tls direction data ∈ out := by simp [hout]
      cases h
      case decideNamespace decision _ =>
        cases decision <;> simp [decided] at hmem
        split at hmem <;> simp at hmem
      case decideGlobal decision _ =>
        cases decision <;> simp [decided] at hmem
        split at hmem <;> simp at hmem
      all_goals simp at hmem
      case write =>
        obtain ⟨rfl, rfl, rfl, -, -⟩ := hmem
        exact Authorized.append hpc before
      case writeError =>
        obtain ⟨rfl, rfl, rfl, -, -⟩ := hmem
        exact Authorized.append hpc before
      case relay =>
        obtain ⟨rfl, rfl, rfl, -, -⟩ := hmem
        exact Authorized.append hpc before
  | _ => trivial

theorem Move.streams (h : Move proxy shared s i addr pc effect conn out)
    (hpc : Justified shared.parse proxy.localId trace i pc)
    (hstreams : ∀ stream ∈ s.streams,
      Authorized shared.parse proxy.localId stream.conn stream.tls trace) :
    ∀ stream ∈ effect.onStreams i addr s.streams,
      Authorized shared.parse proxy.localId stream.conn stream.tls (trace ++ out) := by
  have hold := fun stream hmem => (hstreams stream hmem).append out
  cases h
  case acceptStream => exact Tasks.forall_mem_append hold (Authorized.append hpc _)
  all_goals exact hold

private theorem Invariant.quiet (h : Invariant parse localId trace s)
    (hconns : ∀ (j : Nat) (other : SocketAddr) (next : Pc),
      s'.conns[j]? = some (.handling other next) → s.conns[j]? = some (.handling other next))
    (hstreams : s'.streams = s.streams)
    (hout : ∀ before, ∀ o ∈ out, RelayAuthorized parse localId before o) :
    Invariant parse localId (trace ++ out) s' where
  conns j other next hj := (h.conns j other next (hconns j other next hj)).append out
  streams := by
    rw [hstreams]
    exact fun stream hmem => (h.streams stream hmem).append out
  relays := h.relays.append fun before o after heq => hout _ o (by simp [heq])

private theorem conns_of_set {j : Nat} {other : SocketAddr} {next : Pc}
    (hconn : ∀ addr pc, conn ≠ .handling addr pc)
    (hj : (s.conns.set i conn)[j]? = some (.handling other next)) :
    s.conns[j]? = some (.handling other next) :=
  Tasks.getElem?_of_set hj (hconn other next)

private theorem Invariant.stream (h : Invariant parse localId trace s) {k : Nat}
    {stream : Stream} (hk : s.streams[k]? = some stream) (pc : StreamPc)
    (hout : ∀ before, ∀ o ∈ out, RelayAuthorized parse localId before o) :
    Invariant parse localId (trace ++ out) (s.gotoStream k stream pc) where
  conns j other next hj := (h.conns j other next hj).append out
  streams := by
    have hold := fun stream hmem => (h.streams stream hmem).append out
    exact Tasks.forall_mem_set hold (hold stream (List.mem_of_getElem? hk))
  relays := h.relays.append fun before o after heq => hout _ o (by simp [heq])

theorem Invariant.step (h : Invariant shared.parse proxy.localId trace s)
    (hcache : shared.identityCache.Sound shared.parse)
    (hchange : Change proxy shared s e shared' s' out) :
    Invariant shared.parse proxy.localId (trace ++ out) s' := by
  cases hchange with
  | refuse => exact h.quiet (fun _ _ _ hj => hj) rfl (by simp)
  | saturate => exact h.quiet (fun _ _ _ hj => hj) rfl (by simp [RelayAuthorized])
  | accept =>
      refine h.quiet (fun j other next hj => ?_) rfl (by simp)
      rcases Tasks.getElem?_append_cases hj with ⟨-, heq⟩ | hold
      · cases heq
      · exact hold
  | start | begin | unresolved | leave | release =>
      exact h.quiet (fun _ _ _ hj => conns_of_set (by simp) hj) rfl
        (by simp [RelayAuthorized])
  | @enter e i target hi addr =>
      rw [List.append_nil]
      refine ⟨fun j other next hj => ?_, h.streams, h.relays⟩
      rcases Tasks.getElem?_set_cases hj with ⟨-, heq⟩ | ⟨-, hold⟩
      · cases heq
        trivial
      · exact h.conns j other next hold
  | @move e i addr pc effect conn out hi hmove =>
      have hpc := h.conns i addr pc hi
      refine ⟨fun j other next hj => ?_, hmove.streams hpc h.streams,
        hmove.relayAuthorized hpc h.relays⟩
      rcases Tasks.getElem?_set_cases hj with ⟨rfl, heq⟩ | ⟨-, hold⟩
      · obtain rfl := hmove.handling_eq heq
        exact hmove.justified heq hcache hpc
      · exact (h.conns j other next hold).append out
  | streamStart hk | streamDialError hk | streamEnd hk =>
      exact h.stream hk _ (by simp [RelayAuthorized])
  | streamDial hk => exact h.stream hk _ (by simp)
  | @streamRelay k stream hk hpc direction data =>
      have hauthorized := h.streams stream (List.mem_of_getElem? hk)
      exact ⟨fun j other next hj => (h.conns j other next hj).append _,
        fun stream hmem => (h.streams stream hmem).append _, h.relays.snoc hauthorized⟩

theorem Invariant.initial (proxy : TcpProxy) (parse : X509Parser) :
    Invariant parse proxy.localId [] proxy.initial where
  conns i addr pc hi := by simp [TcpProxy.initial] at hi
  streams stream hmem := by simp [TcpProxy.initial] at hmem
  relays := Preceded.nil

/-- An identity enters the cache with the certificate it was read from. -/
theorem sound_of_change (h : Invariant shared.parse proxy.localId trace s)
    (hcache : shared.identityCache.Sound shared.parse)
    (hchange : Change proxy shared s e shared' s' out) :
    shared'.parse = shared.parse ∧ shared'.identityCache.Sound shared.parse := by
  cases hchange with
  | @move e i addr pc effect conn out hi hmove =>
      refine ⟨rfl, ?_⟩
      have hpc := h.conns i addr pc hi
      cases hmove
      case cache => exact hcache.insert hpc.2
      all_goals exact hcache
  | _ => exact ⟨rfl, hcache⟩

end Interlink.TcpProxy
