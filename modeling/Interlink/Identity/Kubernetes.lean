import Interlink.Common.IdentityUri
import Interlink.Foundation.Base64
import Interlink.Foundation.Words
import Interlink.Proxy.Credentials

/-!
# The Kubernetes identity provider

A workload's identity comes from `INTERLINK_IDENTITY`, or else is put together from the
namespace and the service account of its pod.  The service account is read from the
subject of the mounted token, the namespace from a file of its own: the namespace in the
token's subject is looked at by nobody.
-/

namespace Interlink

open Interlink.Foundation

/-! ## What the pod provides -/

/-- What `read_to_string` and `env::var` return, where an error is `none`. -/
structure Pod where
  readToString : Str → Option Str
  var : Str → Option Str

inductive JsonValue where
  | null
  | bool (value : Bool)
  | number (text : Str)
  | string (text : Str)
  | array (items : List JsonValue)
  | object (fields : List (Str × JsonValue))

def JsonValue.asStr? : JsonValue → Option Str
  | .string text => some text
  | _ => none

/-- `URL_SAFE_NO_PAD.decode` and `serde_json::from_slice` into a map, where an error is `none`. -/
structure TokenLibrary where
  decode : Str → Option (List UInt8)
  fromSlice : List UInt8 → Option (Str → Option JsonValue)

/-- The characters that `str::trim` removes. -/
def isWhitespace (c : Char) : Bool :=
  (9 ≤ c.toNat && c.toNat ≤ 13) || c.toNat == 0x20 || c.toNat == 0x85 || c.toNat == 0xA0 ||
    c.toNat == 0x1680 || (0x2000 ≤ c.toNat && c.toNat ≤ 0x200A) || c.toNat == 0x2028 ||
    c.toNat == 0x2029 || c.toNat == 0x202F || c.toNat == 0x205F || c.toNat == 0x3000

def trim (s : Str) : Str :=
  ((s.dropWhile isWhitespace).reverse.dropWhile isWhitespace).reverse

/-! ## The provider -/

structure KubernetesIdentityProvider where
  trustDomain : TrustDomain
  identity : SpiffeId
  deriving DecidableEq

namespace KubernetesIdentityProvider

def k8sServiceAccountTokenPath : Str :=
  "/var/run/secrets/kubernetes.io/serviceaccount/token".toList

def k8sNamespacePath : Str :=
  "/var/run/secrets/kubernetes.io/serviceaccount/namespace".toList

def interlinkIdentity : Str := "INTERLINK_IDENTITY".toList

def kubernetesNamespace : Str := "KUBERNETES_NAMESPACE".toList

def podNamespace : Str := "POD_NAMESPACE".toList

def kubernetesServiceAccountName : Str := "KUBERNETES_SERVICE_ACCOUNT_NAME".toList

def sub : Str := "sub".toList

def system : Str := "system".toList

def serviceaccount : Str := "serviceaccount".toList

def isDot (c : Char) : Bool := c == '.'

def isColon (c : Char) : Bool := c == ':'

def serviceAccountOfSubject (subject : Str) : Option Str :=
  match splitAtEach isColon subject with
  | [first, second, _, serviceAccount] =>
      if first = system ∧ second = serviceaccount then some serviceAccount else none
  | _ => none

def extractServiceAccountFromToken (lib : TokenLibrary) (token : Str) : Option Str := do
  let payloadB64 ← (splitAtEach isDot token)[1]?
  let payloadJson ← lib.decode payloadB64
  let claims ← lib.fromSlice payloadJson
  let value ← claims sub
  let subject ← value.asStr?
  serviceAccountOfSubject subject

def readNamespace (pod : Pod) : Except InterlinkError Str :=
  match ((pod.readToString k8sNamespacePath).map trim).filter (· ≠ []) with
  | some ns => .ok ns
  | none =>
      match (pod.var kubernetesNamespace).or (pod.var podNamespace) with
      | some ns => .ok ns
      | none => .error (.identity "could not determine Kubernetes namespace".toList)

def readServiceAccount (lib : TokenLibrary) (pod : Pod) : Except InterlinkError Str :=
  match (pod.readToString k8sServiceAccountTokenPath).bind fun token =>
      extractServiceAccountFromToken lib (trim token) with
  | some serviceAccount => .ok serviceAccount
  | none =>
      match pod.var kubernetesServiceAccountName with
      | some serviceAccount => .ok serviceAccount
      | none => .error (.identity "could not determine Kubernetes service account".toList)

def deriveIdentity (lib : TokenLibrary) (pod : Pod) (trustDomain : Str) :
    Except InterlinkError SpiffeId :=
  match (pod.var interlinkIdentity).map SpiffeId.fromUri with
  | some (.ok id) => .ok id
  | _ => do
      let ns ← readNamespace pod
      let serviceAccount ← readServiceAccount lib pod
      SpiffeId.tryNew trustDomain ns serviceAccount

def new (lib : TokenLibrary) (pod : Pod) (trustDomain : Str) :
    Except InterlinkError KubernetesIdentityProvider := do
  let identity ← deriveIdentity lib pod trustDomain
  .ok ⟨⟨trustDomain, []⟩, identity⟩

/-! ## Tokens -/

def urlSafeSymbols : Str :=
  "ABCDEFGHIJKLMNOPQRSTUVWXYZabcdefghijklmnopqrstuvwxyz0123456789-_".toList

theorem length_urlSafeSymbols : urlSafeSymbols.length = 64 := by
  decide

theorem nodup_urlSafeSymbols : urlSafeSymbols.Nodup := by
  decide +kernel

def urlSafe : Base64.Alphabet Char where
  symbol v := urlSafeSymbols.get (v.cast length_urlSafeSymbols.symm)
  injective := (List.nodup_iff_injective_get.mp nodup_urlSafeSymbols).comp
    (Fin.cast_injective length_urlSafeSymbols.symm)

/-- Just the encodings of the alphabet are decoded, each into what was encoded. -/
def UrlSafe (lib : TokenLibrary) : Prop :=
  ∀ text payload, lib.decode text = some payload ↔ text = urlSafe.encode payload

/-- A token is read up to the second dot. -/
structure Token where
  header : Str
  payload : List UInt8
  rest : Str
  header_plain : ∀ c ∈ header, isDot c = false
  rest_dotted : ∀ c ∈ rest.head?, isDot c = true

def Token.text (token : Token) : Str :=
  token.header ++ '.' :: (urlSafe.encode token.payload ++ token.rest)

structure Subject where
  ns : Str
  serviceAccount : Str
  ns_plain : ∀ c ∈ ns, isColon c = false
  serviceAccount_plain : ∀ c ∈ serviceAccount, isColon c = false

def Subject.text (subject : Subject) : Str :=
  system ++ ':' :: (serviceaccount ++ ':' :: (subject.ns ++ ':' :: subject.serviceAccount))

def TokenFor (lib : TokenLibrary) (text serviceAccount : Str) : Prop :=
  ∃ (token : Token) (claims : Str → Option JsonValue) (subject : Subject),
    token.text = text ∧ lib.fromSlice token.payload = some claims ∧
      claims sub = some (.string subject.text) ∧ subject.serviceAccount = serviceAccount

theorem encode_plain (payload : List UInt8) : ∀ c ∈ urlSafe.encode payload, isDot c = false := by
  intro c hc
  obtain ⟨v, -, rfl⟩ := List.mem_map.mp hc
  have hall : ∀ c ∈ urlSafeSymbols, isDot c = false := not_sep_of_all (by decide)
  exact hall _ (List.get_mem _ _)

theorem eq_dot {c : Char} (h : isDot c = true) : c = '.' := beq_iff_eq.mp h

theorem eq_colon {c : Char} (h : isColon c = true) : c = ':' := beq_iff_eq.mp h

variable {lib : TokenLibrary} {pod : Pod} {text ns serviceAccount trustDomain : Str}
  {id : SpiffeId} {provider : KubernetesIdentityProvider}

theorem payload_eq_some (hlib : UrlSafe lib) {payload : List UInt8} :
    (splitAtEach isDot text)[1]?.bind lib.decode = some payload ↔
      ∃ token : Token, token.text = text ∧ token.payload = payload := by
  constructor
  · intro h
    obtain ⟨part, hpart, hdecode⟩ := Option.bind_eq_some_iff.mp h
    obtain rfl := (hlib part payload).mp hdecode
    obtain ⟨header, second, others, hsplit⟩ :
        ∃ header second others, splitAtEach isDot text = header :: second :: others := by
      match hsplit : splitAtEach isDot text with
      | [] => rw [hsplit] at hpart; cases hpart
      | [_] => rw [hsplit] at hpart; cases hpart
      | header :: second :: others => exact ⟨header, second, others, rfl⟩
    rw [hsplit] at hpart
    obtain rfl : second = urlSafe.encode payload := by simpa using hpart
    obtain ⟨hheader, ⟨-, hnil⟩ | ⟨dot, behind, hdot, rfl, hbehind⟩⟩ :=
      splitAtEach_eq_cons.mp hsplit
    · cases hnil
    · obtain rfl := eq_dot hdot
      obtain ⟨-, ⟨rfl, -⟩ | ⟨dot, rest, hdot, rfl, -⟩⟩ := splitAtEach_eq_cons.mp hbehind
      · exact ⟨⟨header, payload, [], hheader, by simp⟩, by simp [Token.text], rfl⟩
      · exact ⟨⟨header, payload, dot :: rest, hheader, by simpa using hdot⟩, rfl, rfl⟩
  · rintro ⟨token, rfl, rfl⟩
    have hbehind : ∃ others, splitAtEach isDot (urlSafe.encode token.payload ++ token.rest) =
        urlSafe.encode token.payload :: others := by
      cases hrest : token.rest with
      | nil =>
          rw [List.append_nil]
          exact ⟨_, splitAtEach_of_not_sep (encode_plain token.payload)⟩
      | cons dot rest =>
          have hdot : isDot dot = true := token.rest_dotted dot (by simp [hrest])
          exact ⟨_, splitAtEach_append_cons (encode_plain token.payload) hdot⟩
    obtain ⟨others, hothers⟩ := hbehind
    rw [Token.text, splitAtEach_append_cons token.header_plain rfl, hothers]
    exact Option.bind_eq_some_iff.mpr ⟨_, rfl, (hlib _ _).mpr rfl⟩

theorem splitAtEach_subject :
    splitAtEach isColon text = [system, serviceaccount, ns, serviceAccount] ↔
      ∃ subject : Subject, subject.text = text ∧ subject.ns = ns ∧
        subject.serviceAccount = serviceAccount := by
  constructor
  · intro h
    obtain ⟨-, ⟨-, hnil⟩ | ⟨colon, text₁, hcolon, rfl, h₁⟩⟩ := splitAtEach_eq_cons.mp h
    · cases hnil
    obtain rfl := eq_colon hcolon
    obtain ⟨-, ⟨-, hnil⟩ | ⟨colon, text₂, hcolon, rfl, h₂⟩⟩ := splitAtEach_eq_cons.mp h₁
    · cases hnil
    obtain rfl := eq_colon hcolon
    obtain ⟨hns, ⟨-, hnil⟩ | ⟨colon, text₃, hcolon, rfl, h₃⟩⟩ := splitAtEach_eq_cons.mp h₂
    · cases hnil
    obtain rfl := eq_colon hcolon
    obtain ⟨hsa, ⟨rfl, -⟩ | ⟨colon, text₄, -, -, h₄⟩⟩ := splitAtEach_eq_cons.mp h₃
    · exact ⟨⟨ns, text₃, hns, hsa⟩, rfl, rfl, rfl⟩
    · exact absurd h₄ (splitAtEach_ne_nil text₄)
  · rintro ⟨subject, rfl, rfl, rfl⟩
    rw [Subject.text, splitAtEach_append_cons (not_sep_of_all (by decide)) rfl,
      splitAtEach_append_cons (not_sep_of_all (by decide)) rfl,
      splitAtEach_append_cons subject.ns_plain rfl,
      splitAtEach_of_not_sep subject.serviceAccount_plain]

theorem serviceAccountOfSubject_eq_some :
    serviceAccountOfSubject text = some serviceAccount ↔
      ∃ subject : Subject, subject.text = text ∧ subject.serviceAccount = serviceAccount := by
  unfold serviceAccountOfSubject
  constructor
  · intro h
    split at h
    · rename_i first second ns account hsplit
      split_ifs at h with hwords
      obtain ⟨rfl, rfl⟩ := hwords
      cases h
      obtain ⟨subject, htext, -, haccount⟩ := splitAtEach_subject.mp hsplit
      exact ⟨subject, htext, haccount⟩
    · cases h
  · rintro ⟨subject, rfl, rfl⟩
    rw [splitAtEach_subject.mpr ⟨subject, rfl, rfl, rfl⟩]
    exact if_pos ⟨rfl, rfl⟩

theorem extractServiceAccountFromToken_eq_some (hlib : UrlSafe lib) :
    extractServiceAccountFromToken lib text = some serviceAccount ↔
      TokenFor lib text serviceAccount := by
  constructor
  · intro h
    obtain ⟨part, hpart, h₁⟩ := Option.bind_eq_some_iff.mp h
    obtain ⟨payload, hpayload, h₂⟩ := Option.bind_eq_some_iff.mp h₁
    obtain ⟨claims, hclaims, h₃⟩ := Option.bind_eq_some_iff.mp h₂
    obtain ⟨value, hvalue, h₄⟩ := Option.bind_eq_some_iff.mp h₃
    obtain ⟨found, hfound, h₅⟩ := Option.bind_eq_some_iff.mp h₄
    obtain ⟨token, htext, rfl⟩ :=
      (payload_eq_some hlib).mp (Option.bind_eq_some_iff.mpr ⟨part, hpart, hpayload⟩)
    obtain ⟨subject, rfl, haccount⟩ := serviceAccountOfSubject_eq_some.mp h₅
    cases value with
    | string text =>
        cases hfound
        exact ⟨token, claims, subject, htext, hclaims, hvalue, haccount⟩
    | _ => cases hfound
  · rintro ⟨token, claims, subject, htext, hclaims, hvalue, haccount⟩
    obtain ⟨part, hpart, hpayload⟩ :=
      Option.bind_eq_some_iff.mp ((payload_eq_some hlib).mpr ⟨token, htext, rfl⟩)
    refine Option.bind_eq_some_iff.mpr ⟨part, hpart, ?_⟩
    refine Option.bind_eq_some_iff.mpr ⟨token.payload, hpayload, ?_⟩
    refine Option.bind_eq_some_iff.mpr ⟨claims, hclaims, ?_⟩
    refine Option.bind_eq_some_iff.mpr ⟨_, hvalue, ?_⟩
    refine Option.bind_eq_some_iff.mpr ⟨subject.text, rfl, ?_⟩
    exact serviceAccountOfSubject_eq_some.mpr ⟨subject, rfl, haccount⟩

/-! ## Where an identity comes from -/

inductive NamespaceOf (pod : Pod) : Str → Prop where
  | file {text : Str} (hfile : pod.readToString k8sNamespacePath = some text)
      (hne : trim text ≠ []) : NamespaceOf pod (trim text)
  | kubernetes {ns : Str}
      (hblank : ∀ text, pod.readToString k8sNamespacePath = some text → trim text = [])
      (hvar : pod.var kubernetesNamespace = some ns) : NamespaceOf pod ns
  | pod {ns : Str}
      (hblank : ∀ text, pod.readToString k8sNamespacePath = some text → trim text = [])
      (hnone : pod.var kubernetesNamespace = none)
      (hvar : pod.var podNamespace = some ns) : NamespaceOf pod ns

inductive ServiceAccountOf (lib : TokenLibrary) (pod : Pod) : Str → Prop where
  | token {text serviceAccount : Str}
      (hfile : pod.readToString k8sServiceAccountTokenPath = some text)
      (htoken : TokenFor lib (trim text) serviceAccount) :
      ServiceAccountOf lib pod serviceAccount
  | var {serviceAccount : Str}
      (hnone : ∀ text other, pod.readToString k8sServiceAccountTokenPath = some text →
        ¬ TokenFor lib (trim text) other)
      (hvar : pod.var kubernetesServiceAccountName = some serviceAccount) :
      ServiceAccountOf lib pod serviceAccount

inductive IdentityOf (lib : TokenLibrary) (pod : Pod) (trustDomain : Str) :
    SpiffeId → Prop where
  | configured {uri : Str} {id : SpiffeId} (hvar : pod.var interlinkIdentity = some uri)
      (hid : SpiffeId.fromUri uri = .ok id) : IdentityOf lib pod trustDomain id
  | mounted {ns serviceAccount : Str}
      (hnone : ∀ uri id, pod.var interlinkIdentity = some uri → SpiffeId.fromUri uri ≠ .ok id)
      (hns : NamespaceOf pod ns) (haccount : ServiceAccountOf lib pod serviceAccount)
      (hne : trustDomain ≠ [] ∧ ns ≠ [] ∧ serviceAccount ≠ []) :
      IdentityOf lib pod trustDomain ⟨trustDomain, ns, serviceAccount⟩

theorem namespaceFile_eq_some :
    ((pod.readToString k8sNamespacePath).map trim).filter (· ≠ []) = some ns ↔
      ∃ text, pod.readToString k8sNamespacePath = some text ∧ trim text = ns ∧ ns ≠ [] := by
  simp only [Option.filter_eq_some_iff, Option.map_eq_some_iff, decide_eq_true_eq]
  tauto

theorem namespaceFile_eq_none :
    ((pod.readToString k8sNamespacePath).map trim).filter (· ≠ []) = none ↔
      ∀ text, pod.readToString k8sNamespacePath = some text → trim text = [] := by
  simp [Option.filter_eq_none_iff]

theorem readNamespace_eq_ok : readNamespace pod = .ok ns ↔ NamespaceOf pod ns := by
  unfold readNamespace
  cases hfile : ((pod.readToString k8sNamespacePath).map trim).filter (· ≠ []) with
  | some found =>
      obtain ⟨text, htext, rfl, hne⟩ := namespaceFile_eq_some.mp hfile
      constructor
      · rintro ⟨⟩
        exact .file htext hne
      · rintro (⟨htext', -⟩ | ⟨hblank, -⟩ | ⟨hblank, -, -⟩)
        · rw [htext] at htext'
          cases htext'
          rfl
        · exact absurd (hblank text htext) hne
        · exact absurd (hblank text htext) hne
  | none =>
      have hblank := namespaceFile_eq_none.mp hfile
      constructor
      · intro h
        cases hkubernetes : pod.var kubernetesNamespace with
        | some found =>
            simp only [hkubernetes, Option.some_or, Except.ok.injEq] at h
            subst h
            exact .kubernetes hblank hkubernetes
        | none =>
            simp only [hkubernetes, Option.none_or] at h
            split at h
            · rename_i hpod
              cases h
              exact .pod hblank hkubernetes hpod
            · cases h
      · rintro (⟨htext, hne⟩ | ⟨-, hvar⟩ | ⟨-, hnone, hvar⟩)
        · exact absurd (hblank _ htext) hne
        · simp only [hvar, Option.some_or]
        · simp only [hnone, hvar, Option.none_or]

theorem readServiceAccount_eq_ok (hlib : UrlSafe lib) :
    readServiceAccount lib pod = .ok serviceAccount ↔
      ServiceAccountOf lib pod serviceAccount := by
  unfold readServiceAccount
  split
  · rename_i found hfound
    obtain ⟨text, htext, hextract⟩ := Option.bind_eq_some_iff.mp hfound
    have htoken := (extractServiceAccountFromToken_eq_some hlib).mp hextract
    constructor
    · rintro ⟨⟩
      exact .token htext htoken
    · rintro (⟨htext', htoken'⟩ | ⟨hnone, -⟩)
      · rw [htext] at htext'
        cases htext'
        rw [(extractServiceAccountFromToken_eq_some hlib).mpr htoken'] at hextract
        cases hextract
        rfl
      · exact absurd htoken (hnone text found htext)
  · rename_i hmissing
    have hnone : ∀ text other, pod.readToString k8sServiceAccountTokenPath = some text →
        ¬ TokenFor lib (trim text) other := by
      intro text other htext htoken
      rw [htext, Option.bind_some,
        (extractServiceAccountFromToken_eq_some hlib).mpr htoken] at hmissing
      cases hmissing
    constructor
    · intro h
      split at h
      · rename_i hvar
        cases h
        exact .var hnone hvar
      · cases h
    · rintro (⟨htext, htoken⟩ | ⟨-, hvar⟩)
      · exact absurd htoken (hnone _ _ htext)
      · simp only [hvar]

theorem tryNew_eq_ok :
    SpiffeId.tryNew trustDomain ns serviceAccount = .ok id ↔
      (trustDomain ≠ [] ∧ ns ≠ [] ∧ serviceAccount ≠ []) ∧
        id = ⟨trustDomain, ns, serviceAccount⟩ := by
  unfold SpiffeId.tryNew SpiffeId.validateSegments SpiffeId.new
  by_cases htd : trustDomain = []
  · simp [htd, bind, Except.bind]
  by_cases hns : ns = []
  · simp [htd, hns, bind, Except.bind]
  by_cases hsa : serviceAccount = []
  · simp [htd, hns, hsa, bind, Except.bind]
  · simp [htd, hns, hsa, bind, Except.bind, eq_comm]

theorem deriveIdentity_eq_ok (hlib : UrlSafe lib) :
    deriveIdentity lib pod trustDomain = .ok id ↔
      IdentityOf lib pod trustDomain id := by
  unfold deriveIdentity
  split
  · rename_i found hfound
    obtain ⟨uri, hvar, hid⟩ := Option.map_eq_some_iff.mp hfound
    constructor
    · rintro ⟨⟩
      exact .configured hvar hid
    · rintro (⟨hvar', hid'⟩ | ⟨hnone, -, -, -⟩)
      · rw [hvar] at hvar'
        cases hvar'
        rw [← hid, hid']
      · exact absurd hid (hnone uri found hvar)
  · rename_i hmissing
    have hnone : ∀ uri id, pod.var interlinkIdentity = some uri →
        SpiffeId.fromUri uri ≠ .ok id := by
      intro uri id hvar hid
      exact hmissing id (by rw [hvar, Option.map_some, hid])
    constructor
    · intro h
      obtain ⟨ns, hns, h⟩ := bind_eq_ok.mp h
      obtain ⟨account, haccount, h⟩ := bind_eq_ok.mp h
      obtain ⟨hne, rfl⟩ := tryNew_eq_ok.mp h
      exact .mounted hnone (readNamespace_eq_ok.mp hns)
        ((readServiceAccount_eq_ok hlib).mp haccount) hne
    · rintro (⟨hvar, hid⟩ | ⟨-, hns, haccount, hne⟩)
      · exact absurd hid (hnone _ _ hvar)
      · rw [readNamespace_eq_ok.mpr hns, (readServiceAccount_eq_ok hlib).mpr haccount]
        exact tryNew_eq_ok.mpr ⟨hne, rfl⟩

/--
The provider is built just when the pod has an identity, and has that one.  The trust
domain it verifies peers against is the configured one, also when `INTERLINK_IDENTITY`
names another.
-/
theorem provider_iff_identityOf (hlib : UrlSafe lib) :
    new lib pod trustDomain = .ok provider ↔
      provider.trustDomain = ⟨trustDomain, []⟩ ∧
        IdentityOf lib pod trustDomain provider.identity := by
  constructor
  · intro h
    obtain ⟨id, hid, h⟩ := bind_eq_ok.mp h
    cases h
    exact ⟨rfl, (deriveIdentity_eq_ok hlib).mp hid⟩
  · rintro ⟨htd, hid⟩
    rw [new, (deriveIdentity_eq_ok hlib).mpr hid, ← htd]
    rfl

section Example

private def claimsText : List UInt8 :=
  bytes "\x7b\"sub\":\"system:serviceaccount:blue:web\"\x7d".toList

private def claimsOf (field : Str) : Option JsonValue :=
  if field = sub then some (.string "system:serviceaccount:blue:web".toList) else none

private def tokenLibrary : TokenLibrary where
  decode := urlSafe.decode?
  fromSlice payload := if payload = claimsText then some claimsOf else none

private theorem tokenLibrary_urlSafe : UrlSafe tokenLibrary :=
  fun _ _ => Base64.Alphabet.decode?_eq_some

private def tokenText : Str :=
  "eyJhbGciOiJSUzI1NiJ9.".toList ++
    "eyJzdWIiOiJzeXN0ZW06c2VydmljZWFjY291bnQ6Ymx1ZTp3ZWIifQ".toList ++ ".c2ln\n".toList

/-- The namespace of the file is green, the one in the token blue. -/
private def mounted : Pod where
  readToString path :=
    if path = k8sNamespacePath then some "green\n".toList
    else if path = k8sServiceAccountTokenPath then some tokenText
    else none
  var _ := none

theorem mounted_identity :
    new tokenLibrary mounted "mesh.local".toList =
        .ok ⟨⟨"mesh.local".toList, []⟩,
          ⟨"mesh.local".toList, "green".toList, "web".toList⟩⟩ ∧
      IdentityOf tokenLibrary mounted "mesh.local".toList
        ⟨"mesh.local".toList, "green".toList, "web".toList⟩ := by
  have hnew : new tokenLibrary mounted "mesh.local".toList =
      .ok ⟨⟨"mesh.local".toList, []⟩, ⟨"mesh.local".toList, "green".toList, "web".toList⟩⟩ := by
    decide +kernel
  exact ⟨hnew, ((provider_iff_identityOf tokenLibrary_urlSafe).mp hnew).2⟩

end Example

end KubernetesIdentityProvider

end Interlink
