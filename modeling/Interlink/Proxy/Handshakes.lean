import Interlink.Proxy.Reload
import Interlink.Proxy.Shared

/-!
# Handshakes and the identity they establish

The calls of `TlsClient::connect` and `TlsServer::accept` of a process, for any number of
clients and servers, with the identity cache they share.  A full handshake finishes only
if the verifier of the endpoint admits the certificates of the peer; a resumed one reports
the certificates of an earlier session.  Between the handshake and the return of a call
the cache is read, and perhaps written, in steps of their own; it may lose an entry at
any time.
-/

namespace Interlink

open Interlink.Foundation

namespace TlsHandshake

open TlsCredentialReloader (Endpoint Role)

/--
A finished handshake: the session as rustls reports it, and the time at which the
certificates were verified if it was a full one.
-/
structure Finished where
  session : TlsSession
  resumed : Bool
  now : UnixTime
  deriving DecidableEq

inductive Pc where
  | handshaking
  | identifying (finished : Finished)
  | caching (finished : Finished) (leafDer : Der) (id : SpiffeId)
  | returned (finished : Option Finished) (result : Except InterlinkError TlsStream)
  deriving DecidableEq

structure Call where
  endpoint : Endpoint
  pc : Pc
  deriving DecidableEq

structure State where
  identityCache : IdentityCache
  calls : List Call

/-- `fail` is a TCP connect that failed, or a handshake that failed or timed out. -/
inductive Event where
  | start (role : Role) (endpoint : Endpoint)
  | fail (i : Nat) (error : InterlinkError)
  | handshaken (i : Nat) (handshake : Handshake) (now : UnixTime)
  | run (i : Nat)
  | evict (leafDer : Der)

def initial : State :=
  ⟨.empty, []⟩

def admits (lib : TlsLibrary) (now : UnixTime) (chain : List Der) : Endpoint → Bool
  | .client client => client.verifier.acceptsChain lib now chain
  | .server server => acceptsClientChain lib server.clientRoots now chain

def start : Role → Endpoint → Pc
  | .connect, .client _ => .handshaking
  | .accept, .server _ => .handshaking
  | .connect, .server _ =>
      .returned none (.error (.tls (generalError
        "server cannot initiate connections".toList)))
  | .accept, .client _ =>
      .returned none (.error (.tls (generalError "client cannot accept connections".toList)))

def State.goto (s : State) (i : Nat) (endpoint : Endpoint) (pc : Pc) : State :=
  { s with calls := s.calls.set i ⟨endpoint, pc⟩ }

def fail (s : State) (i : Nat) (error : InterlinkError) :
    Call → Option (State × List Metric)
  | ⟨endpoint, .handshaking⟩ => some (s.goto i endpoint (.returned none (.error error)), [])
  | _ => none

def handshaken (lib : TlsLibrary) (s : State) (i : Nat) (handshake : Handshake)
    (now : UnixTime) : Call → Option (State × List Metric)
  | ⟨endpoint, .handshaking⟩ =>
      if handshake.resumed ||
          handshake.peerCertificates.any fun chain => admits lib now chain endpoint then
        some (s.goto i endpoint (.identifying ⟨handshake.session i, handshake.resumed, now⟩),
          [.handshakeKind handshake.resumed])
      else none
  | _ => none

/-- The two halves of `extract_identity_from_tls_stream`. -/
def advance (lib : TlsLibrary) (s : State) (i : Nat) : Call → Option (State × List Metric)
  | ⟨endpoint, .identifying finished⟩ =>
      match extractIdentity lib.parse s.identityCache finished.session with
      | .cached id =>
          some (s.goto i endpoint (.returned (some finished) (.ok ⟨finished.session, id⟩)), [])
      | .parsed leafDer id => some (s.goto i endpoint (.caching finished leafDer id), [])
      | .failed error => some (s.goto i endpoint (.returned (some finished) (.error error)), [])
  | ⟨endpoint, .caching finished leafDer id⟩ =>
      some ({ s.goto i endpoint (.returned (some finished) (.ok ⟨finished.session, id⟩)) with
        identityCache := s.identityCache.insert leafDer id }, [])
  | _ => none

def step (lib : TlsLibrary) : Step State Event Metric
  | s, .start role endpoint =>
      some ({ s with calls := s.calls ++ [⟨endpoint, start role endpoint⟩] }, [])
  | s, .fail i error => s.calls[i]?.bind (fail s i error)
  | s, .handshaken i handshake now => s.calls[i]?.bind (handshaken lib s i handshake now)
  | s, .run i => s.calls[i]?.bind (advance lib s i)
  | s, .evict leafDer => some ({ s with identityCache := s.identityCache.evict leafDer }, [])

/-! ## What a step can do -/

inductive Change (lib : TlsLibrary) (s : State) : State → Prop
  | start (role : Role) (endpoint : Endpoint) :
      Change lib s { s with calls := s.calls ++ [⟨endpoint, start role endpoint⟩] }
  | fail {i endpoint} (error : InterlinkError)
      (hi : s.calls[i]? = some ⟨endpoint, .handshaking⟩) :
      Change lib s (s.goto i endpoint (.returned none (.error error)))
  | handshake {i endpoint} (handshake : Handshake) (now : UnixTime)
      (hi : s.calls[i]? = some ⟨endpoint, .handshaking⟩)
      (hadmits : handshake.resumed = false → ∃ chain,
        handshake.peerCertificates = some chain ∧ admits lib now chain endpoint = true) :
      Change lib s (s.goto i endpoint
        (.identifying ⟨handshake.session i, handshake.resumed, now⟩))
  | cached {i endpoint finished id} (hi : s.calls[i]? = some ⟨endpoint, .identifying finished⟩)
      (hfound : extractIdentity lib.parse s.identityCache finished.session = .cached id) :
      Change lib s (s.goto i endpoint
        (.returned (some finished) (.ok ⟨finished.session, id⟩)))
  | parsed {i endpoint finished leafDer id}
      (hi : s.calls[i]? = some ⟨endpoint, .identifying finished⟩)
      (hfound : extractIdentity lib.parse s.identityCache finished.session =
        .parsed leafDer id) :
      Change lib s (s.goto i endpoint (.caching finished leafDer id))
  | failed {i endpoint finished error}
      (hi : s.calls[i]? = some ⟨endpoint, .identifying finished⟩)
      (hfound : extractIdentity lib.parse s.identityCache finished.session = .failed error) :
      Change lib s (s.goto i endpoint (.returned (some finished) (.error error)))
  | cache {i endpoint finished leafDer id}
      (hi : s.calls[i]? = some ⟨endpoint, .caching finished leafDer id⟩) :
      Change lib s { s.goto i endpoint
          (.returned (some finished) (.ok ⟨finished.session, id⟩)) with
        identityCache := s.identityCache.insert leafDer id }
  | evict (leafDer : Der) :
      Change lib s { s with identityCache := s.identityCache.evict leafDer }

variable {lib : TlsLibrary} {s s' : State} {i : Nat} {e : Event} {out : List Metric}

private theorem advance_change {call : Call} (hi : s.calls[i]? = some call)
    (h : advance lib s i call = some (s', out)) : Change lib s s' := by
  obtain ⟨endpoint, pc⟩ := call
  cases pc with
  | identifying finished =>
      simp only [advance] at h
      split at h
      next id hfound =>
        cases h
        exact .cached hi hfound
      next leafDer id hfound =>
        cases h
        exact .parsed hi hfound
      next error hfound =>
        cases h
        exact .failed hi hfound
  | caching finished leafDer id =>
      cases h
      exact .cache hi
  | handshaking => cases h
  | returned finished result => cases h

private theorem handshaken_change {handshake : Handshake} {now : UnixTime} {call : Call}
    (hi : s.calls[i]? = some call)
    (h : handshaken lib s i handshake now call = some (s', out)) : Change lib s s' := by
  obtain ⟨endpoint, pc⟩ := call
  cases pc with
  | handshaking =>
      simp only [handshaken, Option.ite_none_right_eq_some] at h
      obtain ⟨hguard, heq⟩ := h
      cases heq
      refine .handshake handshake now hi fun hfull => ?_
      rw [hfull, Bool.false_or] at hguard
      exact (Option.any_eq_true _ _).mp hguard
  | identifying finished => cases h
  | caching finished leafDer id => cases h
  | returned finished result => cases h

theorem step_change (h : step lib s e = some (s', out)) : Change lib s s' := by
  cases e with
  | start role endpoint =>
      cases h
      exact .start role endpoint
  | fail i error =>
      obtain ⟨⟨endpoint, pc⟩, hi, hfail⟩ := Option.bind_eq_some_iff.mp h
      cases pc with
      | handshaking =>
          cases hfail
          exact .fail error hi
      | identifying finished => cases hfail
      | caching finished leafDer id => cases hfail
      | returned finished result => cases hfail
  | handshaken i handshake now =>
      obtain ⟨call, hi, hhandshaken⟩ := Option.bind_eq_some_iff.mp h
      exact handshaken_change hi hhandshaken
  | run i =>
      obtain ⟨call, hi, hadvance⟩ := Option.bind_eq_some_iff.mp h
      exact advance_change hi hadvance
  | evict leafDer =>
      cases h
      exact .evict leafDer

/-! ## What every history keeps -/

/-- A full handshake has presented certificates that the verifier of the endpoint admits. -/
def Finished.Admitted (lib : TlsLibrary) (endpoint : Endpoint) (finished : Finished) : Prop :=
  finished.resumed = false → ∃ chain, finished.session.peerCertificates = some chain ∧
    admits lib finished.now chain endpoint = true

def Finished.stream (lib : TlsLibrary) (finished : Finished) :
    Except InterlinkError TlsStream :=
  (finished.session.identity lib.parse).map fun id => ⟨finished.session, id⟩

def Call.Justified (lib : TlsLibrary) (call : Call) : Prop :=
  match call.pc with
  | .handshaking => True
  | .identifying finished => finished.Admitted lib call.endpoint
  | .caching finished leafDer id =>
      finished.Admitted lib call.endpoint ∧ finished.session.identity lib.parse = .ok id ∧
        spiffeIdFromCertDer lib.parse leafDer = .ok id
  | .returned (some finished) result =>
      finished.Admitted lib call.endpoint ∧ result = finished.stream lib
  | .returned none _ => True

structure Invariant (lib : TlsLibrary) (s : State) : Prop where
  cache : s.identityCache.Sound lib.parse
  calls : ∀ call ∈ s.calls, call.Justified lib

namespace Invariant

theorem initial : Invariant lib initial where
  cache := IdentityCache.Sound.empty
  calls := List.forall_mem_nil _

private theorem call (h : Invariant lib s) {endpoint : Endpoint} {pc : Pc}
    (hi : s.calls[i]? = some ⟨endpoint, pc⟩) : Call.Justified lib ⟨endpoint, pc⟩ :=
  h.calls _ (List.mem_of_getElem? hi)

theorem step (h : Invariant lib s) (hchange : Change lib s s') : Invariant lib s' := by
  cases hchange with
  | start role endpoint =>
      refine ⟨h.cache, Tasks.forall_mem_append h.calls ?_⟩
      cases role <;> cases endpoint <;> trivial
  | fail error hi => exact ⟨h.cache, Tasks.forall_mem_set h.calls trivial⟩
  | handshake handshake now hi hadmits => exact ⟨h.cache, Tasks.forall_mem_set h.calls hadmits⟩
  | @cached i endpoint finished id hi hfound =>
      have hidentity := identity_of_cached h.cache hfound
      refine ⟨h.cache, Tasks.forall_mem_set h.calls ⟨h.call hi, ?_⟩⟩
      rw [Finished.stream, hidentity]
      rfl
  | parsed hi hfound =>
      have hidentity := identity_of_parsed hfound
      exact ⟨h.cache,
        Tasks.forall_mem_set h.calls ⟨h.call hi, hidentity.2, hidentity.1⟩⟩
  | failed hi hfound =>
      have hidentity := identity_of_failed hfound
      refine ⟨h.cache, Tasks.forall_mem_set h.calls ⟨h.call hi, ?_⟩⟩
      rw [Finished.stream, hidentity]
      rfl
  | cache hi =>
      obtain ⟨hadmitted, hidentity, hleaf⟩ := h.call hi
      refine ⟨h.cache.insert hleaf, Tasks.forall_mem_set h.calls ⟨hadmitted, ?_⟩⟩
      rw [Finished.stream, hidentity]
      rfl
  | evict leafDer => exact ⟨h.cache.evict leafDer, h.calls⟩

theorem of_exec {events : List Event}
    (hrun : (TlsHandshake.step lib).exec TlsHandshake.initial events = some (s, out)) :
    Invariant lib s :=
  Step.invariant (I := fun _ s => Invariant lib s) (fun h hstep => h.step (step_change hstep))
    initial hrun

end Invariant

/-! ## The identity that is returned -/

variable {events : List Event} {finished : Finished} {server : TlsServer} {tls : TlsStream}

theorem Finished.stream_eq_ok (h : finished.stream lib = .ok tls) :
    ∃ leaf intermediates, finished.session.peerCertificates = some (leaf :: intermediates) ∧
      spiffeIdFromCertDer lib.parse leaf = .ok tls.peerIdentity := by
  rw [stream, TlsSession.identity] at h
  cases hleaf : finished.session.leaf with
  | error error =>
      rw [hleaf] at h
      cases h
  | ok leaf =>
      obtain ⟨intermediates, hchain⟩ := TlsSession.leaf_eq_ok hleaf
      rw [hleaf] at h
      change (spiffeIdFromCertDer lib.parse leaf).map _ = _ at h
      cases hid : spiffeIdFromCertDer lib.parse leaf with
      | error error =>
          rw [hid] at h
          cases h
      | ok id =>
          rw [hid] at h
          rw [← Except.ok.inj h]
          exact ⟨leaf, intermediates, hchain, hid⟩

/--
Whatever was cached before, a call returns the identity in the leaf of its own session;
a client that has made a full handshake returns the one its verifier has checked.
-/
theorem returned_identity
    (hrun : (step lib).exec initial events = some (s, out)) :
    (∀ (i : Nat) (endpoint : Endpoint) (finished : Finished)
        (result : Except InterlinkError TlsStream),
      s.calls[i]? = some ⟨endpoint, .returned (some finished) result⟩ →
        result = (finished.session.leaf.bind (spiffeIdFromCertDer lib.parse)).map
          fun id => ⟨finished.session, id⟩) ∧
    ∀ (i : Nat) (provider : StaticIdentityProvider) (cert : Der) (key : PrivateKeyDer)
        (alpn : List (List UInt8)) (client : TlsClient) (finished : Finished) (tls : TlsStream),
      TlsClient.withClientAuthAlpn lib provider cert key alpn = .ok client →
      s.calls[i]? = some ⟨.client client, .returned (some finished) (.ok tls)⟩ →
      finished.resumed = false →
        ∃ leaf intermediates,
          finished.session.peerCertificates = some (leaf :: intermediates) ∧
          client.verifier.verifyServerCert lib leaf intermediates finished.now = .ok () ∧
          spiffeIdFromCertDer lib.parse leaf = .ok tls.peerIdentity ∧
          tls.peerIdentity.trustDomain = provider.trustDomain.name := by
  have hinv := Invariant.of_exec hrun
  refine ⟨fun i endpoint finished result hi => (hinv.call hi).2, ?_⟩
  intro i provider cert key alpn client finished tls hclient hi hfull
  obtain ⟨hadmitted, hresult⟩ := hinv.call hi
  obtain ⟨chain, hchain, hadmits⟩ := hadmitted hfull
  obtain ⟨leaf, intermediates, hpeer, hleaf⟩ := Finished.stream_eq_ok hresult.symm
  obtain rfl : chain = leaf :: intermediates := Option.some.inj (hchain.symm.trans hpeer)
  obtain ⟨-, rfl⟩ := TlsClient.of_withClientAuthAlpn hclient
  obtain ⟨_, hverified⟩ := isOk_iff.mp hadmits
  obtain ⟨-, -, id, hid, hdomain⟩ := SpiffeServerVerifier.verifyServerCert_eq_ok.mp hverified
  obtain rfl : id = tls.peerIdentity := Except.ok.inj (hid.symm.trans hleaf)
  exact ⟨leaf, intermediates, hchain, hverified, hleaf, hdomain⟩

/-! ## The trust domain of an accepted peer -/

def leafTrustDomain (parse : X509Parser) (leaf : Der) : Option Str :=
  (spiffeIdFromCertDer parse leaf).toOption.map SpiffeId.trustDomain

/--
The inbound side admits a peer as the outbound side would, identity and all.  The two
sides validate a path for different uses, so each inclusion asks for the other's use.
-/
structure AdmittedAlike (lib : TlsLibrary) (server : TlsServer) (finished : Finished)
    (tls : TlsStream) : Prop where
  trustDomain : tls.peerIdentity.trustDomain = server.provider.trustDomain.name
  outbound : ∀ leaf intermediates, finished.resumed = false →
    finished.session.peerCertificates = some (leaf :: intermediates) →
    lib.verifySignedByTrustAnchor .serverAuth leaf intermediates server.clientRoots
      finished.now = .ok () →
    SpiffeServerVerifier.verifyServerCert lib
      ⟨server.clientRoots, server.provider.trustDomain.name⟩ leaf intermediates
      finished.now = .ok ()
  inbound : ∀ leaf intermediates now,
    SpiffeServerVerifier.verifyServerCert lib
      ⟨server.clientRoots, server.provider.trustDomain.name⟩ leaf intermediates now = .ok () →
    lib.verifySignedByTrustAnchor .clientAuth leaf intermediates server.clientRoots
      now = .ok () →
    admits lib now (leaf :: intermediates) (.server server) = true ∧
      ∃ id, spiffeIdFromCertDer lib.parse leaf = .ok id ∧
        id.trustDomain = server.provider.trustDomain.name

theorem admits_of_verifyServerCert {trustDomain : Str} {leaf : Der} {intermediates : List Der}
    {now : UnixTime}
    (hverified : SpiffeServerVerifier.verifyServerCert lib ⟨server.clientRoots, trustDomain⟩ leaf
      intermediates now = .ok ())
    (hclient : lib.verifySignedByTrustAnchor .clientAuth leaf intermediates server.clientRoots
      now = .ok ()) :
    admits lib now (leaf :: intermediates) (.server server) = true ∧
      ∃ id, spiffeIdFromCertDer lib.parse leaf = .ok id ∧ id.trustDomain = trustDomain := by
  obtain ⟨hparsed, -, id, hid, hdomain⟩ :=
    SpiffeServerVerifier.verifyServerCert_eq_ok.mp hverified
  exact ⟨Bool.and_eq_true_iff.mpr ⟨isOk_iff.mpr ⟨(), hparsed⟩, isOk_iff.mpr ⟨(), hclient⟩⟩,
    id, hid, hdomain⟩

theorem admittedAlike_iff
    (hrun : (step lib).exec initial events = some (s, out))
    (hi : s.calls[i]? = some ⟨.server server, .returned (some finished) (.ok tls)⟩) :
    AdmittedAlike lib server finished tls ↔
      ∃ leaf intermediates, finished.session.peerCertificates = some (leaf :: intermediates) ∧
        leafTrustDomain lib.parse leaf = some server.provider.trustDomain.name := by
  obtain ⟨hadmitted, hresult⟩ := (Invariant.of_exec hrun).call hi
  obtain ⟨leaf, intermediates, hpeer, hleaf⟩ := Finished.stream_eq_ok hresult.symm
  have hdomain : leafTrustDomain lib.parse leaf = some tls.peerIdentity.trustDomain := by
    rw [leafTrustDomain, hleaf]
    rfl
  constructor
  · intro halike
    exact ⟨leaf, intermediates, hpeer, by rw [hdomain, halike.trustDomain]⟩
  · rintro ⟨found, rest, hfound, hnamed⟩
    obtain ⟨rfl, rfl⟩ := List.cons.inj (Option.some.inj (hpeer.symm.trans hfound))
    have hsame := Option.some.inj (hdomain.symm.trans hnamed)
    refine ⟨hsame, fun other certs hfull hother hpath => ?_,
      fun _ _ _ => admits_of_verifyServerCert⟩
    obtain ⟨rfl, rfl⟩ := List.cons.inj (Option.some.inj (hpeer.symm.trans hother))
    obtain ⟨chain, hchain, hadmits⟩ := hadmitted hfull
    obtain rfl := Option.some.inj (hpeer.symm.trans hchain)
    have hparsed := (Bool.and_eq_true_iff.mp hadmits).1
    obtain ⟨_, hparsed⟩ := isOk_iff.mp hparsed
    exact SpiffeServerVerifier.verifyServerCert_eq_ok.mpr
      ⟨hparsed, hpath, tls.peerIdentity, hleaf, hsame⟩

section Example

open TlsGeneration.Example

private def foreign : SpiffeId :=
  ⟨"other.local".toList, "default".toList, "web".toList⟩

private def issuedTo (leaf : Der) : SpiffeId :=
  if leaf = [4, 1] then foreign else workload

/--
The authority `1` has issued the leaf `3` to the workload and the leaf `4` to a workload of
another trust domain.
-/
private def twoDomains : TlsLibrary :=
  { library with
    parse := fun leaf => .ok [⟨sanOid, .subjectAlternativeName [.uri (issuedTo leaf).toUri]⟩] }

private def meshServer : TlsServer :=
  ⟨[[1, 1]], [[3, 1]], .pkcs8 [7], alpnProtocols, .withCaBundle workload [[1, 1]]⟩

private def meshClient : TlsClient :=
  ⟨⟨[[1, 1]], workload.trustDomain⟩, [[3, 1]], .pkcs8 [7], alpnProtocols,
    .withCaBundle workload [[1, 1]]⟩

private def accepts (leaf : Der) : List Event :=
  [.start .accept (.server meshServer), .handshaken 0 ⟨some [leaf], some alpnMux, false⟩ 0,
    .run 0, .run 0]

private def established (leaf : Der) : Finished :=
  ⟨⟨0, some [leaf], some alpnMux⟩, false, 0⟩

/--
A peer of another trust domain is accepted, although the verifier of the outbound side
refuses its certificate.
-/
theorem foreign_accepted :
    ∃ last, (step twoDomains).exec initial (accepts [4, 1]) = some last ∧
      last.1.calls[0]? = some ⟨.server meshServer,
        .returned (some (established [4, 1])) (.ok ⟨(established [4, 1]).session, foreign⟩)⟩ ∧
      foreign.trustDomain ≠ meshServer.provider.trustDomain.name ∧
      SpiffeServerVerifier.verifyServerCert twoDomains
        ⟨meshServer.clientRoots, meshServer.provider.trustDomain.name⟩ [4, 1] [] 0 ≠ .ok () := by
  have hlast : ((step twoDomains).exec initial (accepts [4, 1])).any (fun last =>
      decide (last.1.calls[0]? = some ⟨.server meshServer, .returned (some (established [4, 1]))
        (.ok ⟨(established [4, 1]).session, foreign⟩)⟩)) = true := by
    decide +kernel
  obtain ⟨last, hrun, hcall⟩ := (Option.any_eq_true _ _).mp hlast
  exact ⟨last, hrun, of_decide_eq_true hcall, by decide +kernel, by decide +kernel⟩

theorem workload_admittedAlike :
    ∃ last, (step twoDomains).exec initial (accepts [3, 1]) = some last ∧
      AdmittedAlike twoDomains meshServer (established [3, 1])
        ⟨(established [3, 1]).session, workload⟩ := by
  have hlast : ((step twoDomains).exec initial (accepts [3, 1])).any (fun last =>
      decide (last.1.calls[0]? = some ⟨.server meshServer, .returned (some (established [3, 1]))
        (.ok ⟨(established [3, 1]).session, workload⟩)⟩)) = true := by
    decide +kernel
  obtain ⟨last, hrun, hcall⟩ := (Option.any_eq_true _ _).mp hlast
  refine ⟨last, hrun, (admittedAlike_iff hrun (of_decide_eq_true hcall)).mpr ?_⟩
  exact ⟨[3, 1], [], rfl, by decide +kernel⟩

/-- The entry is evicted before the call that read the certificate has cached it. -/
private def connects : List Event :=
  [.start .connect (.client meshClient), .handshaken 0 ⟨some [[3, 1]], some alpnMux, false⟩ 0,
    .run 0, .evict [3, 1], .run 0]

theorem connects_identity :
    ∃ last, (step twoDomains).exec initial connects = some last ∧
      ∃ leaf intermediates, some [[3, 1]] = some (leaf :: intermediates) ∧
        meshClient.verifier.verifyServerCert twoDomains leaf intermediates 0 = .ok () ∧
        spiffeIdFromCertDer twoDomains.parse leaf = .ok workload ∧
        workload.trustDomain = meshClient.provider.trustDomain.name := by
  have hlast : ((step twoDomains).exec initial connects).any (fun last =>
      decide (last.1.calls[0]? = some ⟨.client meshClient, .returned (some (established [3, 1]))
        (.ok ⟨(established [3, 1]).session, workload⟩)⟩)) = true := by
    decide +kernel
  obtain ⟨last, hrun, hcall⟩ := (Option.any_eq_true _ _).mp hlast
  have hclient : TlsClient.withClientAuthAlpn twoDomains (.withCaBundle workload [[1, 1]]) [3, 1]
      (.pkcs8 [7]) alpnProtocols = .ok meshClient := rfl
  exact ⟨last, hrun, (returned_identity hrun).2 0 _ _ _ _ meshClient _ _ hclient
    (of_decide_eq_true hcall) rfl⟩

end Example

end TlsHandshake

end Interlink
