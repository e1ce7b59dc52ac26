import Interlink.Common.IdentityUri
import Interlink.Common.SocketText
import Interlink.Foundation.Fallible
import Interlink.Proxy.Credentials

/-!
# Leaf certificates

The certificate authority writes an identity into the subject alternative names of
a leaf, and the proxies read it back from there.  The library that encodes and signs
certificates is a parameter; what a call draws from the system (the time, the serial
number, the key pair) is an argument.
-/

namespace Interlink

open Interlink.Foundation

abbrev KeyPair := List UInt8

inductive SanType where
  | uri (text : Str)
  | dnsName (text : Str)
  | ipAddress (ip : IpAddr)
  deriving DecidableEq, Repr

inductive DnType where
  | commonName
  | organizationName
  deriving DecidableEq, Repr

inductive KeyUsagePurpose where
  | keyCertSign
  | digitalSignature
  deriving DecidableEq, Repr

inductive ExtendedKeyUsagePurpose where
  | serverAuth
  | clientAuth
  deriving DecidableEq, Repr

inductive IsCa where
  | ca
  | explicitNoCa
  deriving DecidableEq, Repr

structure CertificateParams where
  subjectAltNames : List SanType
  distinguishedName : List (DnType × Str)
  keyUsages : List KeyUsagePurpose
  extendedKeyUsages : List ExtendedKeyUsagePurpose
  isCa : IsCa
  notBefore : UnixTime
  notAfter : UnixTime
  serialNumber : List UInt8
  deriving DecidableEq, Repr

structure CertificateAuthority where
  rootKey : KeyPair
  rootCert : Der
  deriving DecidableEq, Repr

structure CertificateLibrary where
  paramsWithoutNames : Except Str Unit
  ia5Error : Str → Str
  signedBy : CertificateParams → KeyPair → CertificateAuthority → Except Str Der
  serializeDer : KeyPair → List UInt8

/-- What one call draws from the system. -/
structure Draws where
  now : UnixTime
  serialBytes : Except Str (List UInt8)
  leafKey : Except Str KeyPair

/-! ## Issuing -/

def leafTtl : Nat := 86400

def identityError (context error : Str) : InterlinkError :=
  .identity (context ++ error)

def ia5String (lib : CertificateLibrary) (context text : Str) : Except InterlinkError Str :=
  if text.all fun c => c.toNat < 128 then .ok text
  else .error (identityError context (lib.ia5Error text))

def generateSerialNumber (draws : Draws) : Except InterlinkError (List UInt8) :=
  draws.serialBytes.mapError (identityError "rng: ".toList)

def leafParams (sans : List SanType) (now : UnixTime) (serialNumber : List UInt8) :
    CertificateParams where
  subjectAltNames := sans
  distinguishedName := []
  keyUsages := [.digitalSignature]
  extendedKeyUsages := [.serverAuth, .clientAuth]
  isCa := .explicitNoCa
  notBefore := now
  notAfter := now + leafTtl
  serialNumber := serialNumber

/-- The end that `issue_leaf` and `issue_leaf_with_key` share. -/
def signLeaf (lib : CertificateLibrary) (ca : CertificateAuthority) (draws : Draws)
    (sans : List SanType) : Except InterlinkError (Der × KeyPair) := do
  let serialNumber ← generateSerialNumber draws
  let leafKey ← draws.leafKey.mapError (identityError "leaf keygen: ".toList)
  let cert ← (lib.signedBy (leafParams sans draws.now serialNumber) leafKey ca).mapError
    (identityError "sign: ".toList)
  .ok (cert, leafKey)

def subjectAltName (lib : CertificateLibrary) (name : Str) : Except InterlinkError SanType :=
  match parseIpAddr name with
  | some ip => .ok (.ipAddress ip)
  | none => do
      let dnsName ← ia5String lib "DNS SAN: ".toList name
      .ok (.dnsName dnsName)

namespace CertificateAuthority

variable (lib : CertificateLibrary) (ca : CertificateAuthority) (draws : Draws)
  (identity : SpiffeId)

def issueLeaf : Except InterlinkError Der := do
  lib.paramsWithoutNames.mapError (identityError "params: ".toList)
  let uri ← ia5String lib "SPIFFE URI SAN: ".toList identity.toUri
  let (cert, _) ← signLeaf lib ca draws [.uri uri]
  .ok cert

def issueLeafWithKey (dnsNames : List Str) : Except InterlinkError (Der × List UInt8) := do
  lib.paramsWithoutNames.mapError (identityError "params: ".toList)
  let uri ← ia5String lib "SPIFFE URI SAN: ".toList identity.toUri
  let names ← dnsNames.mapM (subjectAltName lib)
  let (cert, leafKey) ← signLeaf lib ca draws (.uri uri :: names)
  .ok (cert, lib.serializeDer leafKey)

end CertificateAuthority

/-! ## What is read back -/

def IpAddr.octets : IpAddr → List UInt8
  | .v4 address => (List.range 4).map fun i => UInt8.ofNat (address.toNat >>> (8 * (3 - i)))
  | .v6 address => (List.range 16).map fun i => UInt8.ofNat (address.toNat >>> (8 * (15 - i)))

def SanType.generalName : SanType → GeneralName
  | .uri text => .uri text
  | .dnsName text => .dns text
  | .ipAddress ip => .ip ip.octets

/-- A signed certificate parses, and its names are in its only extension of that kind. -/
def CertificateLibrary.Faithful (lib : CertificateLibrary) (parse : X509Parser) : Prop :=
  ∀ {params leafKey ca cert}, lib.signedBy params leafKey ca = .ok cert →
    params.subjectAltNames ≠ [] →
    ∃ before after, parse cert = .ok (before ++ ⟨sanOid, .subjectAlternativeName
        (params.subjectAltNames.map SanType.generalName)⟩ :: after) ∧
      ∀ extension ∈ before ++ after, extension.oid ≠ sanOid

section Reading

variable {lib : CertificateLibrary} {parse : X509Parser} {ca : CertificateAuthority}
  {draws : Draws}

theorem ia5String_eq_ok {context text found : Str}
    (h : ia5String lib context text = .ok found) : found = text := by
  unfold ia5String at h
  split at h
  · exact (Except.ok.inj h).symm
  · cases h

theorem signLeaf_eq_ok {sans : List SanType} {cert : Der} {leafKey : KeyPair}
    (h : signLeaf lib ca draws sans = .ok (cert, leafKey)) :
    ∃ serialNumber,
      lib.signedBy (leafParams sans draws.now serialNumber) leafKey ca = .ok cert := by
  simp only [signLeaf, bind_eq_ok, mapError_eq_ok, Except.ok.injEq, Prod.mk.injEq] at h
  obtain ⟨serialNumber, -, key, -, found, hsigned, rfl, rfl⟩ := h
  exact ⟨serialNumber, hsigned⟩

private theorem subjectAltName_ne_uri {name text : Str} {san : SanType}
    (h : subjectAltName lib name = .ok san) : san ≠ .uri text := by
  unfold subjectAltName at h
  split at h
  · rw [← Except.ok.inj h]
    simp
  · obtain ⟨dnsName, -, hsan⟩ := bind_eq_ok.mp h
    rw [← Except.ok.inj hsan]
    simp

theorem mapM_subjectAltName_ne_uri {dnsNames : List Str} {names : List SanType}
    (h : dnsNames.mapM (subjectAltName lib) = .ok names) (text : Str) : .uri text ∉ names := by
  induction dnsNames generalizing names with
  | nil =>
      rw [List.mapM_nil] at h
      rw [← Except.ok.inj h]
      simp
  | cons name dnsNames ih =>
      rw [List.mapM_cons] at h
      obtain ⟨san, hsan, hrest⟩ := bind_eq_ok.mp h
      obtain ⟨rest, hmap, hcons⟩ := bind_eq_ok.mp hrest
      rw [← Except.ok.inj hcons]
      intro hmem
      rcases List.mem_cons.mp hmem with heq | hmem
      · exact subjectAltName_ne_uri hsan heq.symm
      · exact ih hmap hmem

private theorem findSome?_names {names : List SanType} (hnames : ∀ text, .uri text ∉ names)
    (uri : Str) :
    ((SanType.uri uri :: names).map SanType.generalName).findSome? (fun
      | .uri text => (SpiffeId.fromUri text).toOption
      | _ => none) = (SpiffeId.fromUri uri).toOption := by
  have hrest : (names.map SanType.generalName).findSome? (fun
      | .uri text => (SpiffeId.fromUri text).toOption
      | _ => none) = none := by
    rw [List.findSome?_eq_none_iff]
    intro name hname
    obtain ⟨san, hsan, rfl⟩ := List.mem_map.mp hname
    cases san with
    | uri text => exact absurd hsan (hnames text)
    | dnsName text => rfl
    | ipAddress ip => rfl
  rw [List.map_cons, List.findSome?_cons, hrest]
  cases h : (SpiffeId.fromUri uri).toOption <;> simp [SanType.generalName, h]

theorem spiffeIdFromCertDer_signLeaf (hfaithful : lib.Faithful parse) {uri : Str}
    {names : List SanType} (hnames : ∀ text, .uri text ∉ names) {cert : Der}
    {leafKey : KeyPair} (h : signLeaf lib ca draws (.uri uri :: names) = .ok (cert, leafKey))
    {found : SpiffeId} :
    spiffeIdFromCertDer parse cert = .ok found ↔ SpiffeId.fromUri uri = .ok found := by
  obtain ⟨serialNumber, hsigned⟩ := signLeaf_eq_ok h
  obtain ⟨before, after, hparse, hothers⟩ := hfaithful hsigned (by simp [leafParams])
  have hother : ∀ extension ∈ before ++ after, extension.spiffeId? = none := by
    intro extension hmem
    rw [Extension.spiffeId?, if_neg (hothers extension hmem)]
  have hbefore : before.findSome? Extension.spiffeId? = none :=
    List.findSome?_eq_none_iff.mpr fun e he => hother e (List.mem_append_left after he)
  have hafter : after.findSome? Extension.spiffeId? = none :=
    List.findSome?_eq_none_iff.mpr fun e he => hother e (List.mem_append_right before he)
  have hsan : Extension.spiffeId? ⟨sanOid, .subjectAlternativeName
      ((SanType.uri uri :: names).map SanType.generalName)⟩ =
        (SpiffeId.fromUri uri).toOption := by
    rw [Extension.spiffeId?, if_pos rfl]
    exact findSome?_names hnames uri
  simp only [spiffeIdFromCertDer, hparse, List.findSome?_append, hbefore, Option.none_or,
    List.findSome?_cons, leafParams, hsan, hafter]
  cases SpiffeId.fromUri uri with
  | error error => simp [Except.toOption]
  | ok id => simp [Except.toOption]

theorem SpiffeId.tryNew_eq_ok {trustDomain ns serviceAccount : Str} {id : SpiffeId}
    (h : tryNew trustDomain ns serviceAccount = .ok id) :
    id = ⟨trustDomain, ns, serviceAccount⟩ := by
  obtain ⟨-, -, hid⟩ := bind_eq_ok.mp h
  exact (Except.ok.inj hid).symm

/--
An issued leaf gives back the identity it was issued for exactly when the trust domain
is in lowercase and no segment has a character that the parser cuts at or refuses.
`try_new` checks neither.
-/
theorem issued_identity_iff (hfaithful : lib.Faithful parse) (ca : CertificateAuthority)
    (draws : Draws) {trustDomain ns serviceAccount : Str} {id : SpiffeId}
    (hid : SpiffeId.tryNew trustDomain ns serviceAccount = .ok id) (dnsNames : List Str) :
    let legible := SpiffeUri.IsTrustDomain trustDomain ∧
      toAsciiLowercase trustDomain = trustDomain ∧
      SpiffeUri.IsSegment ns ∧ SpiffeUri.IsSegment serviceAccount
    (∀ cert, ca.issueLeaf lib draws id = .ok cert →
      (spiffeIdFromCertDer parse cert = .ok id ↔ legible)) ∧
    (∀ cert key, ca.issueLeafWithKey lib draws id dnsNames = .ok (cert, key) →
      (spiffeIdFromCertDer parse cert = .ok id ↔ legible)) := by
  intro legible
  obtain rfl := SpiffeId.tryNew_eq_ok hid
  have hread : SpiffeId.fromUri (SpiffeId.toUri ⟨trustDomain, ns, serviceAccount⟩) =
      .ok ⟨trustDomain, ns, serviceAccount⟩ ↔ legible := by
    rw [SpiffeId.fromUri_toUri_eq_ok]
    simp only [SpiffeId.Delimited, SpiffeId.lowercaseTrustDomain, SpiffeId.mk.injEq, and_true,
      legible]
    rw [eq_comm (a := trustDomain)]
    tauto
  constructor
  · intro cert h
    simp only [CertificateAuthority.issueLeaf, bind_eq_ok] at h
    obtain ⟨-, -, uri, huri, ⟨found, leafKey⟩, hsign, hcert⟩ := h
    obtain rfl := ia5String_eq_ok huri
    obtain rfl := Except.ok.inj hcert
    rw [spiffeIdFromCertDer_signLeaf hfaithful (by simp) hsign, hread]
  · intro cert key h
    simp only [CertificateAuthority.issueLeafWithKey, bind_eq_ok] at h
    obtain ⟨-, -, uri, huri, names, hnames, ⟨found, leafKey⟩, hsign, hcert⟩ := h
    obtain rfl := ia5String_eq_ok huri
    obtain ⟨rfl, -⟩ := Prod.mk.inj (Except.ok.inj hcert)
    rw [spiffeIdFromCertDer_signLeaf hfaithful (mapM_subjectAltName_ne_uri hnames) hsign,
      hread]

end Reading

/-! ## How long a leaf is valid -/

structure Validity where
  notBefore : UnixTime
  notAfter : UnixTime
  deriving DecidableEq, Repr

def Validity.covers (validity : Validity) (now : UnixTime) : Bool :=
  validity.notBefore ≤ now && now ≤ validity.notAfter

def CertificateLibrary.Dated (lib : CertificateLibrary) (validity : Der → Validity) : Prop :=
  ∀ {params leafKey ca cert}, lib.signedBy params leafKey ca = .ok cert →
    validity cert = ⟨params.notBefore, params.notAfter⟩

/-- The authority has issued the certificate at the given time. -/
inductive CertificateAuthority.Issued (lib : CertificateLibrary) (ca : CertificateAuthority)
    (draws : Draws) (cert : Der) : Prop
  | leaf {identity : SpiffeId} (h : ca.issueLeaf lib draws identity = .ok cert)
  | leafWithKey {identity : SpiffeId} {dnsNames : List Str} {key : List UInt8}
      (h : ca.issueLeafWithKey lib draws identity dnsNames = .ok (cert, key))

theorem CertificateAuthority.Issued.notAfter_eq {lib : CertificateLibrary}
    {ca : CertificateAuthority} {draws : Draws} {cert : Der} {validity : Der → Validity}
    (h : ca.Issued lib draws cert) (hdated : lib.Dated validity) :
    (validity cert).notAfter = draws.now + leafTtl := by
  have hsigned : ∃ sans leafKey, signLeaf lib ca draws sans = .ok (cert, leafKey) := by
    cases h with
    | leaf h =>
        simp only [issueLeaf, bind_eq_ok] at h
        obtain ⟨-, -, uri, -, ⟨found, leafKey⟩, hsign, hcert⟩ := h
        obtain rfl := Except.ok.inj hcert
        exact ⟨_, leafKey, hsign⟩
    | leafWithKey h =>
        simp only [issueLeafWithKey, bind_eq_ok] at h
        obtain ⟨-, -, uri, -, names, -, ⟨found, leafKey⟩, hsign, hcert⟩ := h
        obtain ⟨rfl, -⟩ := Prod.mk.inj (Except.ok.inj hcert)
        exact ⟨_, leafKey, hsign⟩
  obtain ⟨sans, leafKey, hsign⟩ := hsigned
  obtain ⟨serialNumber, hcert⟩ := signLeaf_eq_ok hsign
  rw [hdated hcert]
  rfl

section Example

private def signing (names : List SanType) : CertificateLibrary where
  paramsWithoutNames := .ok ()
  ia5Error := fun _ => "InvalidAsn1String(Ia5String)".toList
  signedBy := fun params _ _ =>
    if params.subjectAltNames = names then .ok [0x30, 0x82]
    else .error "unsupported names".toList
  serializeDer := id

private def reading (names : List SanType) : X509Parser := fun _ =>
  .ok [⟨[2, 5, 29, 15], .other⟩,
    ⟨sanOid, .subjectAlternativeName (names.map SanType.generalName)⟩]

private theorem signing_faithful (names : List SanType) :
    (signing names).Faithful (reading names) := by
  intro params leafKey ca cert hsigned _
  simp only [signing] at hsigned
  split at hsigned
  next hnames =>
    refine ⟨[⟨[2, 5, 29, 15], .other⟩], [], ?_, by decide⟩
    rw [hnames]
    rfl
  next => cases hsigned

private def authority : CertificateAuthority := ⟨[], []⟩

private def noon : Draws := ⟨43200, .ok [1], .ok [2]⟩

private def web : SpiffeId := ⟨"mesh.local".toList, "default".toList, "web".toList⟩

private def webNames : List SanType :=
  [.uri web.toUri, .dnsName "web.default.svc".toList, .ipAddress (.v4 0x0a600001)]

theorem web_issued :
    authority.issueLeafWithKey (signing webNames) noon web
        ["web.default.svc".toList, "10.96.0.1".toList] = .ok ([0x30, 0x82], [2]) ∧
      spiffeIdFromCertDer (reading webNames) [0x30, 0x82] = .ok web := by
  have hissued : authority.issueLeafWithKey (signing webNames) noon web
      ["web.default.svc".toList, "10.96.0.1".toList] = .ok ([0x30, 0x82], [2]) := by decide
  have hid : SpiffeId.tryNew "mesh.local".toList "default".toList "web".toList = .ok web := rfl
  exact ⟨hissued, ((issued_identity_iff (signing_faithful webNames) authority noon hid _).2
    _ _ hissued).mpr (by decide)⟩

private def capital : SpiffeId := ⟨"Trust.Local".toList, "default".toList, "web".toList⟩

/--
The leaf of an identity whose trust domain has a capital letter is read as the leaf of
another identity.
-/
theorem capital_issued :
    SpiffeId.tryNew "Trust.Local".toList "default".toList "web".toList = .ok capital ∧
      (signing [.uri capital.toUri]).Faithful (reading [.uri capital.toUri]) ∧
      authority.issueLeaf (signing [.uri capital.toUri]) noon capital =
        .ok [0x30, 0x82] ∧
      spiffeIdFromCertDer (reading [.uri capital.toUri]) [0x30, 0x82] =
        .ok ⟨"trust.local".toList, "default".toList, "web".toList⟩ ∧
      spiffeIdFromCertDer (reading [.uri capital.toUri]) [0x30, 0x82] ≠ .ok capital :=
  ⟨rfl, signing_faithful _, by decide, by decide, by decide⟩

end Example

end Interlink
