import Interlink.Common.Identity
import Interlink.Foundation.Fallible
import Mathlib.Logic.Function.Basic

/-!
# TLS sessions and the identity of their peer

What the proxies see of a finished handshake: the certificates the peer
presented and the negotiated application protocol.  The identity of the peer is
the first SPIFFE URI among the subject alternative names of the leaf, found
through a cache that is keyed by the bytes of the leaf.

X.509 parsing is a parameter: it gives the extensions of a certificate or the
text of a parse error.
-/

namespace Interlink

open Interlink.Foundation

abbrev Der := List UInt8

inductive GeneralName where
  | uri (text : Str)
  | dns (text : Str)
  | ip (octets : List UInt8)
  | other
  deriving DecidableEq, Repr

inductive ParsedExtension where
  | subjectAlternativeName (generalNames : List GeneralName)
  | other
  deriving DecidableEq, Repr

structure Extension where
  oid : List Nat
  parsed : ParsedExtension
  deriving DecidableEq, Repr

abbrev X509Parser := Der → Except Str (List Extension)

def sanOid : List Nat := [2, 5, 29, 17]

namespace Extension

/-- The first SPIFFE URI of a subject-alternative-name extension. -/
def spiffeId? (extension : Extension) : Option SpiffeId :=
  if extension.oid = sanOid then
    match extension.parsed with
    | .subjectAlternativeName generalNames =>
        generalNames.findSome? fun
          | .uri text => (SpiffeId.fromUri text).toOption
          | _ => none
    | .other => none
  else none

theorem exists_fromUri {extension : Extension} {id : SpiffeId}
    (h : extension.spiffeId? = some id) : ∃ uri, SpiffeId.fromUri uri = .ok id := by
  unfold spiffeId? at h
  split at h
  next =>
    split at h
    next generalNames _ =>
      obtain ⟨generalName, -, hname⟩ := List.exists_of_findSome?_eq_some h
      cases generalName with
      | uri text => exact ⟨text, toOption_eq_some.mp hname⟩
      | _ => cases hname
    next => cases h
  next => cases h

end Extension

def spiffeIdFromCertDer (parse : X509Parser) (leafDer : Der) :
    Except InterlinkError SpiffeId :=
  match parse leafDer with
  | .error error => .error (.identity ("cert parse: ".toList ++ error))
  | .ok extensions =>
      match extensions.findSome? Extension.spiffeId? with
      | some id => .ok id
      | none => .error (.identity "no SPIFFE URI in SAN extension".toList)

theorem exists_fromUri_of_spiffeIdFromCertDer {parse : X509Parser} {leafDer : Der}
    {id : SpiffeId} (h : spiffeIdFromCertDer parse leafDer = .ok id) :
    ∃ uri, SpiffeId.fromUri uri = .ok id := by
  unfold spiffeIdFromCertDer at h
  split at h
  next => cases h
  next extensions _ =>
    split at h
    next found hfound =>
      obtain rfl : found = id := Except.ok.inj h
      obtain ⟨extension, -, hextension⟩ := List.exists_of_findSome?_eq_some hfound
      exact Extension.exists_fromUri hextension
    next => cases h

/-! ## Sessions -/

/--
A finished handshake.  Sessions are numbered, so that two connections to one peer
are different sessions.
-/
structure TlsSession where
  number : Nat
  peerCertificates : Option (List Der)
  alpn : Option (List UInt8)
  deriving DecidableEq, Repr

structure TlsStream where
  session : TlsSession
  peerIdentity : SpiffeId
  deriving DecidableEq, Repr

def alpnMux : List UInt8 := bytes "il/mux/1".toList

namespace TlsSession

def negotiatedMux (session : TlsSession) : Bool :=
  session.alpn == some alpnMux

def leaf (session : TlsSession) : Except InterlinkError Der :=
  match session.peerCertificates with
  | none => .error (.identity "no peer certificate".toList)
  | some [] => .error (.identity "empty certificate chain".toList)
  | some (leafDer :: _) => .ok leafDer

/-- The identity in the leaf of the session, without the cache. -/
def identity (parse : X509Parser) (session : TlsSession) : Except InterlinkError SpiffeId :=
  session.leaf.bind (spiffeIdFromCertDer parse)

theorem leaf_eq_ok {session : TlsSession} {leafDer : Der} (h : session.leaf = .ok leafDer) :
    ∃ intermediates, session.peerCertificates = some (leafDer :: intermediates) := by
  unfold leaf at h
  split at h
  next => cases h
  next => cases h
  next found intermediates hchain =>
    cases h
    exact ⟨intermediates, hchain⟩

end TlsSession

def TlsStream.Genuine (parse : X509Parser) (tls : TlsStream) : Prop :=
  tls.session.identity parse = .ok tls.peerIdentity

/-! ## The identity cache -/

abbrev IdentityCache := Der → Option SpiffeId

namespace IdentityCache

def empty : IdentityCache := fun _ => none

def insert (cache : IdentityCache) (leafDer : Der) (id : SpiffeId) : IdentityCache :=
  Function.update cache leafDer (some id)

def evict (cache : IdentityCache) (leafDer : Der) : IdentityCache :=
  Function.update cache leafDer none

def Sound (parse : X509Parser) (cache : IdentityCache) : Prop :=
  ∀ leafDer id, cache leafDer = some id → spiffeIdFromCertDer parse leafDer = .ok id

variable {parse : X509Parser} {cache : IdentityCache} {leafDer : Der} {id : SpiffeId}

theorem Sound.empty : Sound parse empty := by
  intro leafDer id h
  simp [IdentityCache.empty] at h

theorem Sound.insert (h : Sound parse cache)
    (hid : spiffeIdFromCertDer parse leafDer = .ok id) :
    Sound parse (cache.insert leafDer id) := by
  intro other found hfound
  rw [IdentityCache.insert, Function.update_apply] at hfound
  split at hfound
  next heq => rw [heq, hid, Option.some.inj hfound]
  next => exact h other found hfound

theorem Sound.evict (h : Sound parse cache) (leafDer : Der) :
    Sound parse (cache.evict leafDer) := by
  intro other found hfound
  rw [IdentityCache.evict, Function.update_apply] at hfound
  split at hfound
  next => cases hfound
  next => exact h other found hfound

end IdentityCache

/--
The first half of `extract_identity_from_tls_stream`: what the cache answers, or
what the certificate says and has still to be cached.
-/
inductive Lookup where
  | cached (id : SpiffeId)
  | parsed (leafDer : Der) (id : SpiffeId)
  | failed (error : InterlinkError)
  deriving DecidableEq

def extractIdentity (parse : X509Parser) (cache : IdentityCache) (session : TlsSession) :
    Lookup :=
  match session.leaf with
  | .error error => .failed error
  | .ok leafDer =>
      match cache leafDer with
      | some id => .cached id
      | none =>
          match spiffeIdFromCertDer parse leafDer with
          | .ok id => .parsed leafDer id
          | .error error => .failed error

section ExtractIdentity

variable {parse : X509Parser} {cache : IdentityCache} {session : TlsSession} {id : SpiffeId}
  {leafDer : Der}

theorem identity_of_cached (hcache : cache.Sound parse)
    (h : extractIdentity parse cache session = .cached id) :
    session.identity parse = .ok id := by
  unfold extractIdentity at h
  unfold TlsSession.identity
  cases hleaf : session.leaf with
  | error error => simp [hleaf] at h
  | ok leafDer =>
      simp only [hleaf] at h
      cases hfound : cache leafDer with
      | some found =>
          simp only [hfound, Lookup.cached.injEq] at h
          rw [← h]
          exact hcache leafDer found hfound
      | none =>
          simp only [hfound] at h
          split at h <;> cases h

theorem identity_of_parsed (h : extractIdentity parse cache session = .parsed leafDer id) :
    spiffeIdFromCertDer parse leafDer = .ok id ∧ session.identity parse = .ok id := by
  unfold extractIdentity at h
  unfold TlsSession.identity
  cases hleaf : session.leaf with
  | error error => simp [hleaf] at h
  | ok der =>
      simp only [hleaf] at h
      cases hfound : cache der with
      | some found => simp [hfound] at h
      | none =>
          simp only [hfound] at h
          cases hparse : spiffeIdFromCertDer parse der with
          | error error => simp [hparse] at h
          | ok found =>
              simp only [hparse, Lookup.parsed.injEq] at h
              obtain ⟨rfl, rfl⟩ := h
              exact ⟨hparse, hparse⟩

theorem identity_of_failed {error : InterlinkError}
    (h : extractIdentity parse cache session = .failed error) :
    session.identity parse = .error error := by
  unfold extractIdentity at h
  unfold TlsSession.identity
  cases hleaf : session.leaf with
  | error reason =>
      simp only [hleaf, Lookup.failed.injEq] at h
      rw [← h]
      rfl
  | ok der =>
      simp only [hleaf] at h
      cases hfound : cache der with
      | some found => simp [hfound] at h
      | none =>
          simp only [hfound] at h
          cases hparse : spiffeIdFromCertDer parse der with
          | error reason =>
              simp only [hparse, Lookup.failed.injEq] at h
              rw [← h]
              exact hparse
          | ok found => simp [hparse] at h

end ExtractIdentity

end Interlink
