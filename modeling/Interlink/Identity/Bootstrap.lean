import Interlink.Identity.Authority
import Interlink.Policy.Patterns

/-!
# From the authority to a connection

What `issue_leaf_with_key` returns, written to files beside the root, is what
`build_generation` reads.  Two workloads that are set up in this way with one authority
accept each other, as client and as server, and each reads the other's identity.

What the two libraries must agree on is collected in `Coherent`.
-/

namespace Interlink

open Interlink.Foundation

/-! ## What the libraries agree on -/

/-- The library has signed the certificate for the key, with the parameters of a leaf. -/
def CertificateLibrary.SignedLeaf (certs : CertificateLibrary) (ca : CertificateAuthority)
    (issuedAt : UnixTime) (key : KeyPair) (cert : Der) : Prop :=
  ∃ sans serialNumber, certs.signedBy (leafParams sans issuedAt serialNumber) key ca = .ok cert

/--
What one library signs as a leaf with the authority's key, the other validates against
the authority's root: during the time that it was signed for, with the key that it was
signed for.  Nothing is asked about certificates with other parameters.
-/
structure Coherent (certs : CertificateLibrary) (tls : TlsLibrary) (ca : CertificateAuthority) :
    Prop where
  faithful : certs.Faithful tls.parse
  root : tls.addRoot ca.rootCert = .ok ()
  clientVerifier : tls.clientVerifier [ca.rootCert] = .ok ()
  parsed : ∀ {issuedAt key cert}, certs.SignedLeaf ca issuedAt key cert →
    tls.parsedCertificate cert = .ok ()
  trusted : ∀ {issuedAt key cert usage now}, certs.SignedLeaf ca issuedAt key cert →
    (tls.verifySignedByTrustAnchor usage cert [] [ca.rootCert] now = .ok () ↔
      issuedAt ≤ now ∧ now ≤ issuedAt + leafTtl)
  serverKey : ∀ {issuedAt key cert}, certs.SignedLeaf ca issuedAt key cert →
    tls.singleCert [cert] (.pkcs8 (certs.serializeDer key)) = .ok ()
  clientKey : ∀ {issuedAt key cert}, certs.SignedLeaf ca issuedAt key cert →
    tls.clientAuthCert [cert] (.pkcs8 (certs.serializeDer key)) = .ok ()

/-- What `parse_certificates` and `parse_private_key` take for DER. -/
def IsDerFile (bytes : List UInt8) : Prop :=
  bytes ≠ [] ∧ containsPemHeader bytes = false

instance (bytes : List UInt8) : Decidable (IsDerFile bytes) :=
  inferInstanceAs (Decidable (_ ∧ _))

/-! ## One workload -/

/--
A workload with a leaf that the authority has issued, and its three files.  They hold the
bytes that the libraries have returned, and `build_generation` takes them for DER.
-/
structure Workload (certs : CertificateLibrary) (ca : CertificateAuthority) where
  identity : SpiffeId
  dnsNames : List Str
  draws : Draws
  cert : Der
  key : List UInt8
  paths : TlsCredentialPaths
  muxEnabled : Bool
  issued : ca.issueLeafWithKey certs draws identity dnsNames = .ok (cert, key)
  rootFile : IsDerFile ca.rootCert
  certFile : IsDerFile cert
  keyFile : IsDerFile key

namespace Workload

variable {certs : CertificateLibrary} {tls : TlsLibrary} {ca : CertificateAuthority}
  {now : UnixTime}

def files (w : Workload certs ca) : CredentialReads :=
  ⟨.ok ca.rootCert, .ok w.cert, .ok w.key⟩

def credentials (w : Workload certs ca) : Credentials :=
  ⟨[ca.rootCert], w.cert, [], .pkcs8 w.key⟩

def Current (w : Workload certs ca) (now : UnixTime) : Prop :=
  w.draws.now ≤ now ∧ now ≤ w.draws.now + leafTtl

theorem parseCertificates_eq {bytes : List UInt8} (h : IsDerFile bytes) :
    parseCertificates tls bytes = .ok [bytes] := by
  simp [parseCertificates, h.1, h.2]

theorem parsePrivateKey_eq {bytes : List UInt8} (h : IsDerFile bytes) :
    parsePrivateKey tls bytes = .ok (.pkcs8 bytes) := by
  simp [parsePrivateKey, h.1, h.2]

theorem credentials_eq (w : Workload certs ca) :
    w.files.credentials tls w.paths = .ok w.credentials := by
  refine bind_eq_ok.mpr ⟨[ca.rootCert], ?_, bind_eq_ok.mpr ⟨(w.cert, []), ?_,
    bind_eq_ok.mpr ⟨.pkcs8 w.key, ?_, rfl⟩⟩⟩
  · exact bind_eq_ok.mpr ⟨ca.rootCert, rfl, parseCertificates_eq w.rootFile⟩
  · exact bind_eq_ok.mpr ⟨w.cert, rfl, bind_eq_ok.mpr ⟨[w.cert], parseCertificates_eq w.certFile,
      rfl⟩⟩
  · exact bind_eq_ok.mpr ⟨w.key, rfl, parsePrivateKey_eq w.keyFile⟩

theorem exists_signed (w : Workload certs ca) :
    ∃ names leafKey, (∀ text, .uri text ∉ names) ∧
      signLeaf certs ca w.draws (.uri w.identity.toUri :: names) = .ok (w.cert, leafKey) ∧
      w.key = certs.serializeDer leafKey := by
  have h := w.issued
  simp only [CertificateAuthority.issueLeafWithKey, bind_eq_ok] at h
  obtain ⟨-, -, uri, huri, names, hnames, ⟨found, leafKey⟩, hsign, hcert⟩ := h
  obtain rfl := ia5String_eq_ok huri
  obtain ⟨rfl, hkey⟩ := Prod.mk.inj (Except.ok.inj hcert)
  exact ⟨names, leafKey, mapM_subjectAltName_ne_uri hnames, hsign, hkey.symm⟩

theorem exists_signedLeaf (w : Workload certs ca) :
    ∃ leafKey, certs.SignedLeaf ca w.draws.now leafKey w.cert ∧
      w.key = certs.serializeDer leafKey := by
  obtain ⟨names, leafKey, -, hsign, hkey⟩ := w.exists_signed
  obtain ⟨serialNumber, hsigned⟩ := signLeaf_eq_ok hsign
  exact ⟨leafKey, ⟨_, serialNumber, hsigned⟩, hkey⟩

theorem identity_iff (hcoherent : Coherent certs tls ca) (w : Workload certs ca) :
    spiffeIdFromCertDer tls.parse w.cert = .ok w.identity ↔ w.identity.Canonical := by
  obtain ⟨names, leafKey, hnames, hsign, -⟩ := w.exists_signed
  rw [spiffeIdFromCertDer_signLeaf hcoherent.faithful hnames hsign]
  exact SpiffeId.fromUri_toUri_iff

theorem trusted_iff (hcoherent : Coherent certs tls ca) (w : Workload certs ca)
    (usage : KeyUsage) :
    tls.verifySignedByTrustAnchor usage w.cert [] [ca.rootCert] now = .ok () ↔
      w.Current now := by
  obtain ⟨leafKey, hsigned, -⟩ := w.exists_signedLeaf
  exact hcoherent.trusted hsigned

theorem parsed (hcoherent : Coherent certs tls ca) (w : Workload certs ca) :
    tls.parsedCertificate w.cert = .ok () := by
  obtain ⟨leafKey, hsigned, -⟩ := w.exists_signedLeaf
  exact hcoherent.parsed hsigned

theorem verifyServerCert_eq (hcoherent : Coherent certs tls ca) (w : Workload certs ca)
    (hcanonical : w.identity.Canonical) (hnow : w.Current now) {trustDomain : Str}
    (htrust : w.identity.trustDomain = trustDomain) :
    SpiffeServerVerifier.verifyServerCert tls ⟨[ca.rootCert], trustDomain⟩ w.cert [] now =
      .ok () :=
  SpiffeServerVerifier.verifyServerCert_eq_ok.mpr ⟨w.parsed hcoherent,
    (w.trusted_iff hcoherent _).mpr hnow, w.identity, (w.identity_iff hcoherent).mpr hcanonical,
    htrust⟩

theorem valid (hcoherent : Coherent certs tls ca) (w : Workload certs ca)
    (hcanonical : w.identity.Canonical) (hnow : w.Current now) :
    w.credentials.Valid tls w.identity now := by
  obtain ⟨leafKey, hsigned, hkey⟩ := w.exists_signedLeaf
  refine ⟨(w.identity_iff hcoherent).mpr hcanonical,
    w.verifyServerCert_eq hcoherent hcanonical hnow rfl, ?_, ?_⟩
  · simpa only [credentials, hkey] using hcoherent.serverKey hsigned
  · simpa only [credentials, hkey] using hcoherent.clientKey hsigned

end Workload

/-! ## The generation that is built -/

section Build

variable {tls : TlsLibrary} {root : Der}

theorem RootCertStore.ofCerts_singleton (h : tls.addRoot root = .ok ()) :
    RootCertStore.ofCerts tls [root] = .ok [root] := by
  simp [RootCertStore.ofCerts, h, Except.map]

theorem Credentials.Valid.generation_eq {credentials : Credentials} {identity : SpiffeId}
    {now : UnixTime} (h : credentials.Valid tls identity now) (hroots : credentials.roots = [root])
    (hroot : tls.addRoot root = .ok ()) (hclient : tls.clientVerifier [root] = .ok ())
    (muxEnabled : Bool) :
    credentials.generation tls identity muxEnabled now =
      .ok (credentials.endpoints identity muxEnabled) := by
  have hstore := RootCertStore.ofCerts_singleton hroot
  have hchain := h.chain
  rw [hroots] at hchain
  have hserver : ∀ alpn, TlsServer.newWithAlpn tls
      (.withCaBundle identity credentials.roots) credentials.certificate credentials.privateKey
      alpn = .ok ⟨credentials.roots, [credentials.certificate], credentials.privateKey, alpn,
        .withCaBundle identity credentials.roots⟩ := by
    intro alpn
    simp [TlsServer.newWithAlpn, StaticIdentityProvider.withCaBundle, hroots, hstore, hclient,
      h.serverKey, Except.mapError, bind, Except.bind]
  have hclient' : ∀ alpn, TlsClient.withClientAuthAlpn tls
      (.withCaBundle identity credentials.roots) credentials.certificate credentials.privateKey
      alpn = .ok ⟨⟨credentials.roots, identity.trustDomain⟩, [credentials.certificate],
        credentials.privateKey, alpn, .withCaBundle identity credentials.roots⟩ := by
    intro alpn
    simp [TlsClient.withClientAuthAlpn, StaticIdentityProvider.withCaBundle, hroots, hstore,
      h.clientKey, Except.mapError, bind, Except.bind]
  refine bind_eq_ok.mpr ⟨(), checkIdentity_eq_ok.mpr h.identity, bind_eq_ok.mpr ⟨[root], ?_,
    bind_eq_ok.mpr ⟨(), ?_, ?_⟩⟩⟩
  · rw [hroots]
    exact mapError_eq_ok.mpr hstore
  · exact mapError_eq_ok.mpr hchain
  · cases muxEnabled with
    | true => exact bind_eq_ok.mpr ⟨_, hserver _, bind_eq_ok.mpr ⟨_, hclient' _, rfl⟩⟩
    | false => exact bind_eq_ok.mpr ⟨_, hserver _, bind_eq_ok.mpr ⟨_, hclient' _, rfl⟩⟩

end Build

/-! ## Two workloads -/

/--
The client of one generation and the server of another authenticate each other, and each
reads the other's identity from what it was presented.
-/
structure Authenticate (tls : TlsLibrary) (now : UnixTime) (client : TlsClient)
    (clientIdentity : SpiffeId) (server : TlsServer) (serverIdentity : SpiffeId) : Prop where
  serverAccepted : client.verifier.acceptsChain tls now server.certChain = true
  clientAccepted : acceptsClientChain tls server.clientRoots now client.certChain = true
  serverRead : ∃ leaf ∈ server.certChain.head?,
    spiffeIdFromCertDer tls.parse leaf = .ok serverIdentity
  clientRead : ∃ leaf ∈ client.certChain.head?,
    spiffeIdFromCertDer tls.parse leaf = .ok clientIdentity

variable {certs : CertificateLibrary} {tls : TlsLibrary} {ca : CertificateAuthority}
  {now : UnixTime}

theorem Workload.authenticate (hcoherent : Coherent certs tls ca) {a b : Workload certs ca}
    (hcanonicalA : a.identity.Canonical) (ha : a.Current now)
    (hcanonicalB : b.identity.Canonical) (hb : b.Current now)
    (htrust : b.identity.trustDomain = a.identity.trustDomain) :
    Authenticate tls now (a.credentials.endpoints a.identity a.muxEnabled).client a.identity
      (b.credentials.endpoints b.identity b.muxEnabled).server b.identity where
  serverAccepted := by
    simp [Credentials.endpoints, Workload.credentials, SpiffeServerVerifier.acceptsChain,
      b.verifyServerCert_eq hcoherent hcanonicalB hb htrust, Except.isOk, Except.toBool]
  clientAccepted := by
    simp [Credentials.endpoints, Workload.credentials, acceptsClientChain, a.parsed hcoherent,
      (a.trusted_iff hcoherent _).mpr ha, Except.isOk, Except.toBool]
  serverRead := ⟨b.cert, rfl, (b.identity_iff hcoherent).mpr hcanonicalB⟩
  clientRead := ⟨a.cert, rfl, (a.identity_iff hcoherent).mpr hcanonicalA⟩

theorem Workload.buildGeneration_iff (hcoherent : Coherent certs tls ca) (w : Workload certs ca)
    {generation : TlsGeneration} :
    buildGeneration tls w.paths w.identity w.muxEnabled w.files now = .ok generation ↔
      (w.identity.Canonical ∧ w.Current now) ∧
        generation = w.credentials.endpoints w.identity w.muxEnabled := by
  constructor
  · intro hbuild
    obtain ⟨found, hfound, hvalid, rfl⟩ := of_buildGeneration hbuild
    obtain rfl := Except.ok.inj (w.credentials_eq.symm.trans hfound)
    obtain ⟨-, htrusted, -⟩ := SpiffeServerVerifier.verifyServerCert_eq_ok.mp hvalid.chain
    exact ⟨⟨(w.identity_iff hcoherent).mp hvalid.identity,
      (w.trusted_iff hcoherent _).mp htrusted⟩, rfl⟩
  · rintro ⟨⟨hcanonical, hnow⟩, rfl⟩
    exact bind_eq_ok.mpr ⟨w.credentials, w.credentials_eq,
      (w.valid hcoherent hcanonical hnow).generation_eq rfl hcoherent.root
        hcoherent.clientVerifier _⟩

/--
Two workloads of one trust domain, with leaves of one authority: a workload loads its
files just when its identity can be read back from its URI and while its leaf lasts.
When both have loaded theirs, whichever of them calls the other, both accept and each
learns the other's identity.
-/
theorem issued_workloads_authenticate (hcoherent : Coherent certs tls ca)
    (a b : Workload certs ca) (htrust : a.identity.trustDomain = b.identity.trustDomain)
    (now : UnixTime) :
    ((∃ generation, buildGeneration tls a.paths a.identity a.muxEnabled a.files now =
        .ok generation) ↔ a.identity.Canonical ∧ a.Current now) ∧
      ∀ generationA generationB,
        buildGeneration tls a.paths a.identity a.muxEnabled a.files now = .ok generationA →
        buildGeneration tls b.paths b.identity b.muxEnabled b.files now = .ok generationB →
        Authenticate tls now generationA.client a.identity generationB.server b.identity ∧
          Authenticate tls now generationB.client b.identity generationA.server a.identity := by
  refine ⟨⟨?_, fun ha => ⟨_, (a.buildGeneration_iff hcoherent).mpr ⟨ha, rfl⟩⟩⟩,
    fun generationA generationB => ?_⟩
  · rintro ⟨generation, hbuild⟩
    exact ((a.buildGeneration_iff hcoherent).mp hbuild).1
  · intro hbuildA hbuildB
    obtain ⟨⟨hcanonicalA, ha⟩, rfl⟩ := (a.buildGeneration_iff hcoherent).mp hbuildA
    obtain ⟨⟨hcanonicalB, hb⟩, rfl⟩ := (b.buildGeneration_iff hcoherent).mp hbuildB
    exact ⟨Workload.authenticate hcoherent hcanonicalA ha hcanonicalB hb htrust.symm,
      Workload.authenticate hcoherent hcanonicalB hb hcanonicalA ha htrust⟩

section Example

private def frontId : SpiffeId := ⟨"mesh.local".toList, "default".toList, "front".toList⟩

private def backId : SpiffeId := ⟨"mesh.local".toList, "default".toList, "back".toList⟩

private def dawn : Draws := ⟨21600, .ok [1], .ok [2]⟩

private def leafOf (identity : SpiffeId) : CertificateParams :=
  leafParams [.uri identity.toUri] 21600 [1]

private def signingBoth : CertificateLibrary where
  paramsWithoutNames := .ok ()
  ia5Error _ := "InvalidAsn1String(Ia5String)".toList
  signedBy params _ _ :=
    if params = leafOf frontId then .ok [0x30, 1]
    else if params = leafOf backId then .ok [0x30, 2]
    else .error "unsupported parameters".toList
  serializeDer := id

private def validatingBoth : TlsLibrary where
  parse cert := .ok [⟨sanOid, .subjectAlternativeName
    [.uri (if cert = [0x30, 1] then frontId else backId).toUri]⟩]
  certs _ := .ok []
  privateKey _ := .ok none
  addRoot _ := .ok ()
  parsedCertificate _ := .ok ()
  verifySignedByTrustAnchor _ _ _ _ now :=
    if 21600 ≤ now ∧ now ≤ 21600 + leafTtl then .ok () else .error "Expired".toList
  clientVerifier _ := .ok ()
  singleCert _ _ := .ok ()
  clientAuthCert _ _ := .ok ()

private def rootAuthority : CertificateAuthority := ⟨[9], [0x30, 9]⟩

private theorem signed_cases {params : CertificateParams} {key : KeyPair}
    {ca : CertificateAuthority} {cert : Der}
    (h : signingBoth.signedBy params key ca = .ok cert) :
    params = leafOf frontId ∧ cert = [0x30, 1] ∨ params = leafOf backId ∧ cert = [0x30, 2] := by
  simp only [signingBoth] at h
  split at h
  next hparams => exact .inl ⟨hparams, (Except.ok.inj h).symm⟩
  next =>
    split at h
    next hparams => exact .inr ⟨hparams, (Except.ok.inj h).symm⟩
    next => cases h

private theorem coherentBoth : Coherent signingBoth validatingBoth rootAuthority where
  faithful := by
    intro params leafKey ca cert h _
    refine ⟨[], [], ?_, by simp⟩
    rcases signed_cases h with ⟨rfl, rfl⟩ | ⟨rfl, rfl⟩ <;> rfl
  root := rfl
  clientVerifier := rfl
  parsed _ := rfl
  trusted := by
    rintro issuedAt key cert usage now ⟨sans, serialNumber, h⟩
    obtain rfl : issuedAt = 21600 := by
      rcases signed_cases h with ⟨hparams, -⟩ | ⟨hparams, -⟩ <;>
        exact congrArg CertificateParams.notBefore hparams
    simp only [validatingBoth]
    split_ifs with hdates
    · exact iff_of_true rfl hdates
    · exact iff_of_false (by rintro ⟨⟩) hdates
  serverKey _ := rfl
  clientKey _ := rfl

private def front : Workload signingBoth rootAuthority where
  identity := frontId
  dnsNames := []
  draws := dawn
  cert := [0x30, 1]
  key := [2]
  paths := TlsGeneration.Example.paths
  muxEnabled := true
  issued := by decide
  rootFile := by decide
  certFile := by decide
  keyFile := by decide

private def back : Workload signingBoth rootAuthority where
  identity := backId
  dnsNames := []
  draws := dawn
  cert := [0x30, 2]
  key := [2]
  paths := TlsGeneration.Example.paths
  muxEnabled := true
  issued := by decide
  rootFile := by decide
  certFile := by decide
  keyFile := by decide

theorem front_back_authenticate :
    ∃ generationA generationB,
      buildGeneration validatingBoth front.paths frontId true front.files 43200 =
        .ok generationA ∧
      buildGeneration validatingBoth back.paths backId true back.files 43200 =
        .ok generationB ∧
      Authenticate validatingBoth 43200 generationA.client frontId generationB.server backId := by
  obtain ⟨hfront, hboth⟩ := issued_workloads_authenticate coherentBoth front back rfl 43200
  obtain ⟨hback, -⟩ := issued_workloads_authenticate coherentBoth back front rfl 43200
  obtain ⟨generationA, hbuildA⟩ := hfront.mpr ⟨by decide, by decide, by decide⟩
  obtain ⟨generationB, hbuildB⟩ := hback.mpr ⟨by decide, by decide, by decide⟩
  exact ⟨generationA, generationB, hbuildA, hbuildB,
    (hboth generationA generationB hbuildA hbuildB).1⟩

end Example

end Interlink
