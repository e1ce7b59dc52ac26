import Interlink.Foundation.Fallible
import Interlink.Proxy.Tls

/-!
# TLS credentials

The three credential files, the checks a generation of credentials passes before
it is installed, and the client and server that are built from it.

The TLS library and the two parsers it comes with are parameters.  Path
validation is a fixed function of the key usage, the leaf, the presented
intermediates, the roots and the time, and an endpoint presents exactly the
certificates it was configured with.  An error of the library is its text.
-/

namespace Interlink

open Interlink.Foundation

abbrev UnixTime := Nat

abbrev RootCertStore := List Der

inductive KeyUsage where
  | serverAuth
  | clientAuth
  deriving DecidableEq, Repr

inductive PrivateKeyDer where
  | pkcs1 (der : Der)
  | sec1 (der : Der)
  | pkcs8 (der : Der)
  deriving DecidableEq, Repr

structure TlsLibrary where
  parse : X509Parser
  certs : List UInt8 → Except Str (List Der)
  privateKey : List UInt8 → Except Str (Option PrivateKeyDer)
  addRoot : Der → Except Str Unit
  parsedCertificate : Der → Except Str Unit
  verifySignedByTrustAnchor :
    KeyUsage → Der → List Der → RootCertStore → UnixTime → Except Str Unit
  clientVerifier : RootCertStore → Except Str Unit
  singleCert : List Der → PrivateKeyDer → Except Str Unit
  clientAuthCert : List Der → PrivateKeyDer → Except Str Unit

def generalError (message : Str) : Str :=
  "unexpected error: ".toList ++ message

namespace RootCertStore

def ofCerts (lib : TlsLibrary) (roots : List Der) : Except Str RootCertStore :=
  roots.foldlM (fun store root => (lib.addRoot root).map fun _ => store ++ [root]) []

theorem foldlM_eq_ok {lib : TlsLibrary} {roots : List Der} {before store : RootCertStore}
    (h : roots.foldlM (fun store root => (lib.addRoot root).map fun _ => store ++ [root])
      before = .ok store) : store = before ++ roots := by
  induction roots generalizing before with
  | nil =>
      have hbefore : before = store := by simpa [pure, Except.pure] using h
      simp [hbefore]
  | cons root roots ih =>
      rw [List.foldlM_cons] at h
      obtain ⟨next, hnext, hrest⟩ := bind_eq_ok.mp h
      cases hadd : lib.addRoot root with
      | error error => simp [hadd, Except.map] at hnext
      | ok _ =>
          simp only [hadd, Except.map, Except.ok.injEq] at hnext
          rw [ih hrest, ← hnext]
          simp

theorem of_ofCerts {lib : TlsLibrary} {roots : List Der} {store : RootCertStore}
    (h : ofCerts lib roots = .ok store) : store = roots :=
  foldlM_eq_ok h

end RootCertStore

/-! ## Verification of a presented chain -/

structure SpiffeServerVerifier where
  roots : RootCertStore
  trustDomain : Str
  deriving DecidableEq

namespace SpiffeServerVerifier

def verifyServerCert (lib : TlsLibrary) (verifier : SpiffeServerVerifier) (endEntity : Der)
    (intermediates : List Der) (now : UnixTime) : Except Str Unit := do
  lib.parsedCertificate endEntity
  lib.verifySignedByTrustAnchor .serverAuth endEntity intermediates verifier.roots now
  let id ← (spiffeIdFromCertDer lib.parse endEntity).mapError fun error =>
    generalError ("SPIFFE identity: ".toList ++ error.display)
  if id.trustDomain = verifier.trustDomain then .ok ()
  else
    .error (generalError ("peer trust domain '".toList ++ id.trustDomain ++
      "' does not match ours '".toList ++ verifier.trustDomain ++ "'".toList))

/-- The verdict on a chain as it is presented: the leaf first. -/
def acceptsChain (lib : TlsLibrary) (verifier : SpiffeServerVerifier) (now : UnixTime) :
    List Der → Bool
  | [] => false
  | endEntity :: intermediates =>
      (verifier.verifyServerCert lib endEntity intermediates now).isOk

theorem verifyServerCert_eq_ok {lib : TlsLibrary} {verifier : SpiffeServerVerifier}
    {endEntity : Der} {intermediates : List Der} {now : UnixTime} :
    verifier.verifyServerCert lib endEntity intermediates now = .ok () ↔
      lib.parsedCertificate endEntity = .ok () ∧
      lib.verifySignedByTrustAnchor .serverAuth endEntity intermediates verifier.roots now =
        .ok () ∧
      ∃ id, spiffeIdFromCertDer lib.parse endEntity = .ok id ∧
        id.trustDomain = verifier.trustDomain := by
  simp only [verifyServerCert, bind_eq_ok, mapError_eq_ok, ite_eq_left_iff, reduceCtorEq,
    imp_false, not_not]
  constructor
  · rintro ⟨_, hparsed, _, hpath, hid⟩
    exact ⟨hparsed, hpath, hid⟩
  · rintro ⟨hparsed, hpath, hid⟩
    exact ⟨(), hparsed, (), hpath, hid⟩

end SpiffeServerVerifier

/--
`WebPkiClientVerifier` on a presented chain: path validation for client use, with
no name to compare.
-/
def acceptsClientChain (lib : TlsLibrary) (roots : RootCertStore) (now : UnixTime) :
    List Der → Bool
  | [] => false
  | endEntity :: intermediates =>
      (lib.parsedCertificate endEntity).isOk &&
        (lib.verifySignedByTrustAnchor .clientAuth endEntity intermediates roots now).isOk

/-! ## The client and the server of a generation -/

structure TrustDomain where
  name : Str
  caCerts : List Der
  deriving DecidableEq

structure StaticIdentityProvider where
  identity : SpiffeId
  trustDomain : TrustDomain
  deriving DecidableEq

def StaticIdentityProvider.withCaBundle (identity : SpiffeId) (caBundle : List Der) :
    StaticIdentityProvider :=
  ⟨identity, ⟨identity.trustDomain, caBundle⟩⟩

def alpnProtocols : List (List UInt8) :=
  [alpnMux, bytes "h2".toList, bytes "http/1.1".toList]

def legacyAlpnProtocols : List (List UInt8) :=
  [bytes "h2".toList, bytes "http/1.1".toList]

/--
`certChain` is what the server presents, `clientRoots` are the anchors of its
`WebPkiClientVerifier`.
-/
structure TlsServer where
  clientRoots : RootCertStore
  certChain : List Der
  key : PrivateKeyDer
  alpn : List (List UInt8)
  provider : StaticIdentityProvider
  deriving DecidableEq

namespace TlsServer

def newWithAlpn (lib : TlsLibrary) (provider : StaticIdentityProvider) (serverCert : Der)
    (serverKey : PrivateKeyDer) (alpn : List (List UInt8)) :
    Except InterlinkError TlsServer := do
  let rootStore ← (RootCertStore.ofCerts lib provider.trustDomain.caCerts).mapError .tls
  (lib.clientVerifier rootStore).mapError fun error => .tls (generalError error)
  (lib.singleCert [serverCert] serverKey).mapError .tls
  .ok ⟨rootStore, [serverCert], serverKey, alpn, provider⟩

def new (lib : TlsLibrary) (provider : StaticIdentityProvider) (serverCert : Der)
    (serverKey : PrivateKeyDer) : Except InterlinkError TlsServer :=
  newWithAlpn lib provider serverCert serverKey alpnProtocols

end TlsServer

structure TlsClient where
  verifier : SpiffeServerVerifier
  certChain : List Der
  key : PrivateKeyDer
  alpn : List (List UInt8)
  provider : StaticIdentityProvider
  deriving DecidableEq

namespace TlsClient

def withClientAuthAlpn (lib : TlsLibrary) (provider : StaticIdentityProvider) (cert : Der)
    (key : PrivateKeyDer) (alpn : List (List UInt8)) : Except InterlinkError TlsClient := do
  let rootStore ← (RootCertStore.ofCerts lib provider.trustDomain.caCerts).mapError .tls
  (lib.clientAuthCert [cert] key).mapError .tls
  .ok ⟨⟨rootStore, provider.trustDomain.name⟩, [cert], key, alpn, provider⟩

def withClientAuth (lib : TlsLibrary) (provider : StaticIdentityProvider) (cert : Der)
    (key : PrivateKeyDer) : Except InterlinkError TlsClient :=
  withClientAuthAlpn lib provider cert key alpnProtocols

end TlsClient

structure TlsGeneration where
  client : TlsClient
  server : TlsServer
  deriving DecidableEq

/-! ## The credential files -/

structure TlsCredentialPaths where
  caBundle : Str
  certificate : Str
  privateKey : Str
  deriving DecidableEq

def pemHeader : List UInt8 := bytes "-----BEGIN ".toList

def containsPemHeader (bytes : List UInt8) : Bool :=
  bytes.tails.any fun window => pemHeader.isPrefixOf window

/-- `contents` is what `std::fs::read` returned for the path. -/
def readFile (path description : Str) (contents : Except Str (List UInt8)) :
    Except InterlinkError (List UInt8) :=
  contents.mapError fun error =>
    .io ("read ".toList ++ description ++ " '".toList ++ path ++ "': ".toList ++ error)

def parseCertificates (lib : TlsLibrary) (bytes : List UInt8) :
    Except InterlinkError (List Der) :=
  if containsPemHeader bytes then do
    let certificates ← (lib.certs bytes).mapError .io
    if certificates = [] then .error (.io "PEM file contains no certificates".toList)
    else .ok certificates
  else if bytes = [] then .error (.io "DER certificate file is empty".toList)
  else .ok [bytes]

def parsePrivateKey (lib : TlsLibrary) (bytes : List UInt8) :
    Except InterlinkError PrivateKeyDer :=
  if containsPemHeader bytes then do
    match ← (lib.privateKey bytes).mapError .io with
    | some key => .ok key
    | none => .error (.io "PEM file contains no supported private key".toList)
  else if bytes = [] then .error (.io "DER private-key file is empty".toList)
  else .ok (.pkcs8 bytes)

structure Credentials where
  roots : List Der
  certificate : Der
  intermediates : List Der
  privateKey : PrivateKeyDer
  deriving DecidableEq

/-! ## Building a generation -/

def loadRoots (lib : TlsLibrary) (paths : TlsCredentialPaths)
    (contents : Except Str (List UInt8)) : Except InterlinkError (List Der) := do
  let bytes ← readFile paths.caBundle "CA bundle".toList contents
  parseCertificates lib bytes

def loadCertificates (lib : TlsLibrary) (paths : TlsCredentialPaths)
    (contents : Except Str (List UInt8)) : Except InterlinkError (Der × List Der) := do
  let bytes ← readFile paths.certificate "certificate".toList contents
  match ← parseCertificates lib bytes with
  | [] => .error (.config "certificate file contains no certificates".toList)
  | certificate :: intermediates => .ok (certificate, intermediates)

def loadPrivateKey (lib : TlsLibrary) (paths : TlsCredentialPaths)
    (contents : Except Str (List UInt8)) : Except InterlinkError PrivateKeyDer := do
  let bytes ← readFile paths.privateKey "private key".toList contents
  parsePrivateKey lib bytes

namespace Credentials

def checkIdentity (lib : TlsLibrary) (expectedIdentity : SpiffeId) (certificate : Der) :
    Except InterlinkError Unit := do
  let actualIdentity ← spiffeIdFromCertDer lib.parse certificate
  if actualIdentity = expectedIdentity then .ok ()
  else
    .error (.identity ("certificate identity '".toList ++ actualIdentity.toUri ++
      "' does not match configured identity '".toList ++ expectedIdentity.toUri ++
      "'".toList))

/-- The second half of `build_generation`: the checks and the two endpoints. -/
def generation (lib : TlsLibrary) (expectedIdentity : SpiffeId) (muxEnabled : Bool)
    (now : UnixTime) (credentials : Credentials) : Except InterlinkError TlsGeneration := do
  checkIdentity lib expectedIdentity credentials.certificate
  let rootStore ← (RootCertStore.ofCerts lib credentials.roots).mapError .tls
  let verifier : SpiffeServerVerifier := ⟨rootStore, expectedIdentity.trustDomain⟩
  (verifier.verifyServerCert lib credentials.certificate credentials.intermediates
    now).mapError .tls
  let provider := StaticIdentityProvider.withCaBundle expectedIdentity credentials.roots
  if muxEnabled then do
    let server ← TlsServer.new lib provider credentials.certificate credentials.privateKey
    let client ← TlsClient.withClientAuth lib provider credentials.certificate
      credentials.privateKey
    .ok ⟨client, server⟩
  else do
    let server ← TlsServer.newWithAlpn lib provider credentials.certificate
      credentials.privateKey legacyAlpnProtocols
    let client ← TlsClient.withClientAuthAlpn lib provider credentials.certificate
      credentials.privateKey legacyAlpnProtocols
    .ok ⟨client, server⟩

end Credentials

structure CredentialReads where
  caBundle : Except Str (List UInt8)
  certificate : Except Str (List UInt8)
  privateKey : Except Str (List UInt8)

def CredentialReads.credentials (lib : TlsLibrary) (paths : TlsCredentialPaths)
    (reads : CredentialReads) : Except InterlinkError Credentials := do
  let roots ← loadRoots lib paths reads.caBundle
  let (certificate, intermediates) ← loadCertificates lib paths reads.certificate
  let privateKey ← loadPrivateKey lib paths reads.privateKey
  .ok ⟨roots, certificate, intermediates, privateKey⟩

def buildGeneration (lib : TlsLibrary) (paths : TlsCredentialPaths)
    (expectedIdentity : SpiffeId) (muxEnabled : Bool) (reads : CredentialReads)
    (now : UnixTime) : Except InterlinkError TlsGeneration := do
  let credentials ← reads.credentials lib paths
  credentials.generation lib expectedIdentity muxEnabled now

/-! ## What a successful build establishes -/

theorem TlsServer.of_newWithAlpn {lib : TlsLibrary} {provider : StaticIdentityProvider}
    {cert : Der} {key : PrivateKeyDer} {alpn : List (List UInt8)} {server : TlsServer}
    (h : newWithAlpn lib provider cert key alpn = .ok server) :
    lib.singleCert [cert] key = .ok () ∧
      server = ⟨provider.trustDomain.caCerts, [cert], key, alpn, provider⟩ := by
  simp only [newWithAlpn, bind_eq_ok, mapError_eq_ok, Except.ok.injEq] at h
  obtain ⟨store, hstore, _, _, _, hkey, rfl⟩ := h
  exact ⟨hkey, by rw [RootCertStore.of_ofCerts hstore]⟩

theorem TlsClient.of_withClientAuthAlpn {lib : TlsLibrary}
    {provider : StaticIdentityProvider} {cert : Der} {key : PrivateKeyDer}
    {alpn : List (List UInt8)} {client : TlsClient}
    (h : withClientAuthAlpn lib provider cert key alpn = .ok client) :
    lib.clientAuthCert [cert] key = .ok () ∧
      client = ⟨⟨provider.trustDomain.caCerts, provider.trustDomain.name⟩, [cert], key,
        alpn, provider⟩ := by
  simp only [withClientAuthAlpn, bind_eq_ok, mapError_eq_ok, Except.ok.injEq] at h
  obtain ⟨store, hstore, _, hkey, rfl⟩ := h
  exact ⟨hkey, by rw [RootCertStore.of_ofCerts hstore]⟩

namespace Credentials

/-- The files form a trusted, currently valid key pair of the expected workload. -/
structure Valid (lib : TlsLibrary) (expectedIdentity : SpiffeId) (now : UnixTime)
    (credentials : Credentials) : Prop where
  identity : spiffeIdFromCertDer lib.parse credentials.certificate = .ok expectedIdentity
  chain : SpiffeServerVerifier.verifyServerCert lib
    ⟨credentials.roots, expectedIdentity.trustDomain⟩ credentials.certificate
    credentials.intermediates now = .ok ()
  serverKey : lib.singleCert [credentials.certificate] credentials.privateKey = .ok ()
  clientKey : lib.clientAuthCert [credentials.certificate] credentials.privateKey = .ok ()

def endpoints (expectedIdentity : SpiffeId) (muxEnabled : Bool) (credentials : Credentials) :
    TlsGeneration :=
  let provider := StaticIdentityProvider.withCaBundle expectedIdentity credentials.roots
  let alpn := if muxEnabled then alpnProtocols else legacyAlpnProtocols
  { client := ⟨⟨credentials.roots, expectedIdentity.trustDomain⟩, [credentials.certificate],
      credentials.privateKey, alpn, provider⟩
    server := ⟨credentials.roots, [credentials.certificate], credentials.privateKey, alpn,
      provider⟩ }

variable {lib : TlsLibrary} {expectedIdentity : SpiffeId} {muxEnabled : Bool}
  {now : UnixTime} {credentials : Credentials} {generation : TlsGeneration}

theorem checkIdentity_eq_ok {certificate : Der} :
    checkIdentity lib expectedIdentity certificate = .ok () ↔
      spiffeIdFromCertDer lib.parse certificate = .ok expectedIdentity := by
  simp only [checkIdentity, bind_eq_ok, ite_eq_left_iff, reduceCtorEq, imp_false, not_not]
  constructor
  · rintro ⟨_, hid, rfl⟩
    exact hid
  · intro hid
    exact ⟨expectedIdentity, hid, rfl⟩

theorem of_generation
    (h : credentials.generation lib expectedIdentity muxEnabled now = .ok generation) :
    credentials.Valid lib expectedIdentity now ∧
      generation = credentials.endpoints expectedIdentity muxEnabled := by
  simp only [Credentials.generation, bind_eq_ok, mapError_eq_ok] at h
  obtain ⟨_, hidentity, store, hstore, _, hchain, hendpoints⟩ := h
  obtain rfl := RootCertStore.of_ofCerts hstore
  cases muxEnabled with
  | true =>
      simp only [↓reduceIte, bind_eq_ok, Except.ok.injEq] at hendpoints
      obtain ⟨server, hserver, client, hclient, rfl⟩ := hendpoints
      obtain ⟨hserverKey, rfl⟩ := TlsServer.of_newWithAlpn hserver
      obtain ⟨hclientKey, rfl⟩ := TlsClient.of_withClientAuthAlpn hclient
      exact ⟨⟨checkIdentity_eq_ok.mp hidentity, hchain, hserverKey, hclientKey⟩, rfl⟩
  | false =>
      simp only [Bool.false_eq_true, ↓reduceIte, bind_eq_ok, Except.ok.injEq] at hendpoints
      obtain ⟨server, hserver, client, hclient, rfl⟩ := hendpoints
      obtain ⟨hserverKey, rfl⟩ := TlsServer.of_newWithAlpn hserver
      obtain ⟨hclientKey, rfl⟩ := TlsClient.of_withClientAuthAlpn hclient
      exact ⟨⟨checkIdentity_eq_ok.mp hidentity, hchain, hserverKey, hclientKey⟩, rfl⟩

end Credentials

theorem of_buildGeneration {lib : TlsLibrary} {paths : TlsCredentialPaths}
    {expectedIdentity : SpiffeId} {muxEnabled : Bool} {reads : CredentialReads}
    {now : UnixTime} {generation : TlsGeneration}
    (h : buildGeneration lib paths expectedIdentity muxEnabled reads now = .ok generation) :
    ∃ credentials, reads.credentials lib paths = .ok credentials ∧
      credentials.Valid lib expectedIdentity now ∧
      generation = credentials.endpoints expectedIdentity muxEnabled := by
  obtain ⟨credentials, hreads, hgeneration⟩ := bind_eq_ok.mp h
  exact ⟨credentials, hreads, Credentials.of_generation hgeneration⟩

/-! ## The chains that are served -/

/-- A peer with these roots accepts what the server presents, and what the client presents. -/
def TlsGeneration.served (lib : TlsLibrary) (roots : RootCertStore) (trustDomain : Str)
    (now : UnixTime) (generation : TlsGeneration) : Bool :=
  SpiffeServerVerifier.acceptsChain lib ⟨roots, trustDomain⟩ now
      generation.server.certChain &&
    acceptsClientChain lib roots now generation.client.certChain

namespace Credentials

/-- The leaf is trusted for both uses without the other certificates of its file. -/
def leafSuffices (lib : TlsLibrary) (now : UnixTime) (credentials : Credentials) : Bool :=
  let verify usage := lib.verifySignedByTrustAnchor usage credentials.certificate []
    credentials.roots now
  (verify .serverAuth).isOk && (verify .clientAuth).isOk

variable {lib : TlsLibrary} {expectedIdentity : SpiffeId} {muxEnabled : Bool}
  {now : UnixTime} {credentials : Credentials}

private theorem isOk_unit {x : Except Str Unit} : x.isOk = true ↔ x = .ok () := by
  rw [isOk_iff]
  exact ⟨fun ⟨_, h⟩ => h, fun h => ⟨(), h⟩⟩

theorem Valid.acceptsChain_iff (h : credentials.Valid lib expectedIdentity now)
    (intermediates : List Der) :
    SpiffeServerVerifier.acceptsChain lib ⟨credentials.roots, expectedIdentity.trustDomain⟩
        now (credentials.certificate :: intermediates) = true ↔
      lib.verifySignedByTrustAnchor .serverAuth credentials.certificate intermediates
        credentials.roots now = .ok () := by
  obtain ⟨hparsed, -, -⟩ := SpiffeServerVerifier.verifyServerCert_eq_ok.mp h.chain
  rw [SpiffeServerVerifier.acceptsChain, isOk_unit,
    SpiffeServerVerifier.verifyServerCert_eq_ok]
  constructor
  · rintro ⟨-, hpath, -⟩
    exact hpath
  · intro hpath
    exact ⟨hparsed, hpath, expectedIdentity, h.identity, rfl⟩

theorem Valid.served_iff (h : credentials.Valid lib expectedIdentity now) :
    (credentials.endpoints expectedIdentity muxEnabled).served lib credentials.roots
        expectedIdentity.trustDomain now = true ↔ credentials.leafSuffices lib now = true := by
  obtain ⟨hparsed, -, -⟩ := SpiffeServerVerifier.verifyServerCert_eq_ok.mp h.chain
  simp only [TlsGeneration.served, endpoints, leafSuffices, Bool.and_eq_true,
    h.acceptsChain_iff, acceptsClientChain, isOk_unit, hparsed, true_and]

theorem Valid.acceptsChain_of_no_intermediates
    (h : credentials.Valid lib expectedIdentity now) (hone : credentials.intermediates = []) :
    SpiffeServerVerifier.acceptsChain lib ⟨credentials.roots, expectedIdentity.trustDomain⟩
      now (credentials.endpoints expectedIdentity muxEnabled).server.certChain = true := by
  have hchain := h.chain
  rw [hone] at hchain
  exact (h.acceptsChain_iff []).mpr
    (SpiffeServerVerifier.verifyServerCert_eq_ok.mp hchain).2.1

end Credentials

namespace TlsGeneration

theorem served_iff_leafSuffices {lib : TlsLibrary} {paths : TlsCredentialPaths}
    {expectedIdentity : SpiffeId} {muxEnabled : Bool} {reads : CredentialReads}
    {now : UnixTime} {credentials : Credentials} {generation : TlsGeneration}
    (hfiles : reads.credentials lib paths = .ok credentials)
    (hbuild : buildGeneration lib paths expectedIdentity muxEnabled reads now =
      .ok generation) :
    generation.served lib credentials.roots expectedIdentity.trustDomain now = true ↔
      credentials.leafSuffices lib now = true := by
  obtain ⟨found, hfound, hvalid, rfl⟩ := of_buildGeneration hbuild
  obtain rfl : credentials = found := by
    rw [hfiles] at hfound
    exact Except.ok.inj hfound
  exact hvalid.served_iff

namespace Example

def workload : SpiffeId :=
  ⟨"mesh.local".toList, "default".toList, "web".toList⟩

def issuedBy (issuers : List Der) (certificate : Der) : Bool :=
  issuers.any fun issuer => issuer.head? == certificate.getLast?

def pairs : List UInt8 → List Der
  | subject :: issuer :: rest => [subject, issuer] :: pairs rest
  | _ => []

/-- A library whose paths have at most one intermediate. -/
def library : TlsLibrary where
  parse _ := .ok [⟨sanOid, .subjectAlternativeName [.uri workload.toUri]⟩]
  certs file := .ok (pairs (file.drop pemHeader.length))
  privateKey _ := .ok none
  addRoot _ := .ok ()
  parsedCertificate _ := .ok ()
  verifySignedByTrustAnchor _ leaf intermediates roots _ :=
    if issuedBy (roots ++ intermediates.filter (issuedBy roots)) leaf then .ok ()
    else .error "invalid peer certificate: UnknownIssuer".toList
  clientVerifier _ := .ok ()
  singleCert _ _ := .ok ()
  clientAuthCert _ _ := .ok ()

def paths : TlsCredentialPaths :=
  ⟨"ca.pem".toList, "server.pem".toList, "server.key".toList⟩

/-- The root `1` has issued the intermediate `2`, which has issued the leaf `3`. -/
def hierarchy : CredentialReads :=
  ⟨.ok [1, 1], .ok (pemHeader ++ [3, 2, 2, 1]), .ok [7]⟩

def direct : CredentialReads :=
  ⟨.ok [1, 1], .ok (pemHeader ++ [3, 1]), .ok [7]⟩

end Example

open Example in
theorem hierarchy_not_served :
    hierarchy.credentials library paths = .ok ⟨[[1, 1]], [3, 2], [[2, 1]], .pkcs8 [7]⟩ ∧
    ∃ generation, buildGeneration library paths workload true hierarchy 0 =
        .ok generation ∧
      generation.served library [[1, 1]] workload.trustDomain 0 = false := by
  have hsome : (buildGeneration library paths workload true hierarchy 0).toOption.any
      (fun generation =>
        generation.served library [[1, 1]] workload.trustDomain 0 == false) = true := by
    decide +kernel
  refine ⟨by rfl, ?_⟩
  cases h : buildGeneration library paths workload true hierarchy 0 with
  | error error => simp [h, Except.toOption] at hsome
  | ok generation =>
      refine ⟨generation, rfl, ?_⟩
      simpa [h, Except.toOption] using hsome

open Example in
theorem direct_served :
    (Credentials.endpoints workload true ⟨[[1, 1]], [3, 1], [], .pkcs8 [7]⟩).served library
      [[1, 1]] workload.trustDomain 0 = true :=
  (served_iff_leafSuffices
    (by rfl : direct.credentials library paths = .ok ⟨[[1, 1]], [3, 1], [], .pkcs8 [7]⟩)
    (by rfl : buildGeneration library paths workload true direct 0 =
      .ok (Credentials.endpoints workload true ⟨[[1, 1]], [3, 1], [], .pkcs8 [7]⟩))).mpr
    (by decide)

end TlsGeneration

end Interlink
