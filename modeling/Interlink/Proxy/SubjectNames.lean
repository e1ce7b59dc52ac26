import Interlink.Foundation.Fallible
import Interlink.Foundation.Selection
import Interlink.Proxy.Tls

/-!
# Subject alternative names

`spiffe_id_from_cert_der` scans the extensions of a certificate and the names in them and
returns the first SPIFFE URI that parses.  Which one that is depends on the order of the
names unless they all spell one identity.
-/

namespace Interlink

open Interlink.Foundation

def GeneralName.spiffeId? : GeneralName → Option SpiffeId
  | .uri text => (SpiffeId.fromUri text).toOption
  | _ => none

def Extension.generalNames (extension : Extension) : List GeneralName :=
  if extension.oid = sanOid then
    match extension.parsed with
    | .subjectAlternativeName generalNames => generalNames
    | .other => []
  else []

def subjectAlternativeNames (extensions : List Extension) : List GeneralName :=
  extensions.flatMap Extension.generalNames

theorem GeneralName.spiffeId?_eq_some {name : GeneralName} {id : SpiffeId} :
    name.spiffeId? = some id ↔ ∃ text, name = .uri text ∧ SpiffeId.fromUri text = .ok id := by
  cases name with
  | uri text =>
      rw [spiffeId?, toOption_eq_some]
      constructor
      · intro h
        exact ⟨text, rfl, h⟩
      · rintro ⟨found, heq, h⟩
        cases heq
        exact h
  | _ => simp [spiffeId?]

theorem Extension.spiffeId?_eq (extension : Extension) :
    extension.spiffeId? = extension.generalNames.findSome? GeneralName.spiffeId? := by
  obtain ⟨oid, parsed⟩ := extension
  by_cases hoid : oid = sanOid
  · rw [spiffeId?, generalNames, if_pos hoid, if_pos hoid]
    cases parsed with
    | subjectAlternativeName generalNames => rfl
    | other => rfl
  · rw [spiffeId?, generalNames, if_neg hoid, if_neg hoid]
    rfl

variable {parse : X509Parser} {leafDer : Der} {extensions : List Extension}

def scanned : Option SpiffeId → Except InterlinkError SpiffeId
  | some id => .ok id
  | none => .error (.identity "no SPIFFE URI in SAN extension".toList)

theorem scanned_injective : Function.Injective scanned := by
  intro first second h
  cases first <;> cases second <;> cases h <;> rfl

theorem spiffeIdFromCertDer_eq (h : parse leafDer = .ok extensions) :
    spiffeIdFromCertDer parse leafDer =
      scanned ((subjectAlternativeNames extensions).findSome? GeneralName.spiffeId?) := by
  have hscan : extensions.findSome? Extension.spiffeId? =
      (subjectAlternativeNames extensions).findSome? GeneralName.spiffeId? := by
    rw [subjectAlternativeNames, Selection.findSome?_flatMap]
    exact congrArg (extensions.findSome? ·) (funext Extension.spiffeId?_eq)
  simp only [spiffeIdFromCertDer, h, ← hscan]
  cases extensions.findSome? Extension.spiffeId? <;> rfl

theorem findSome?_names_perm_iff (names : List GeneralName) :
    (∀ names' : List GeneralName, names'.Perm names →
      names'.findSome? GeneralName.spiffeId? = names.findSome? GeneralName.spiffeId?) ↔
    ∀ uri uri' id id', .uri uri ∈ names → .uri uri' ∈ names → SpiffeId.fromUri uri = .ok id →
      SpiffeId.fromUri uri' = .ok id' → id = id' := by
  rw [Selection.findSome?_perm_iff]
  constructor
  · intro hagree uri uri' id id' huri huri' hid hid'
    exact hagree _ huri _ huri' id id' (GeneralName.spiffeId?_eq_some.mpr ⟨uri, rfl, hid⟩)
      (GeneralName.spiffeId?_eq_some.mpr ⟨uri', rfl, hid'⟩)
  · intro hagree name hname name' hname' id id' hid hid'
    obtain ⟨uri, rfl, huri⟩ := GeneralName.spiffeId?_eq_some.mp hid
    obtain ⟨uri', rfl, huri'⟩ := GeneralName.spiffeId?_eq_some.mp hid'
    exact hagree uri uri' id id' hname hname' huri huri'

/--
The identity of a certificate is the same in every order of its names, however they are
spread over extensions, just when all SPIFFE URIs among them spell one identity.
-/
theorem identity_order_free_iff (h : parse leafDer = .ok extensions) :
    (∀ (parse' : X509Parser) (leafDer' : Der) (extensions' : List Extension),
      parse' leafDer' = .ok extensions' →
      (subjectAlternativeNames extensions').Perm (subjectAlternativeNames extensions) →
      spiffeIdFromCertDer parse' leafDer' = spiffeIdFromCertDer parse leafDer) ↔
    ∀ uri uri' id id', .uri uri ∈ subjectAlternativeNames extensions →
      .uri uri' ∈ subjectAlternativeNames extensions → SpiffeId.fromUri uri = .ok id →
        SpiffeId.fromUri uri' = .ok id' → id = id' := by
  rw [← findSome?_names_perm_iff, spiffeIdFromCertDer_eq h]
  constructor
  · intro hsame names hperm
    let extension : Extension := ⟨sanOid, .subjectAlternativeName names⟩
    have hnames : subjectAlternativeNames [extension] = names := by
      simp [subjectAlternativeNames, Extension.generalNames, extension]
    let parser : X509Parser := fun _ => .ok [extension]
    have hparse : parser leafDer = .ok [extension] := rfl
    have hresult := hsame parser leafDer [extension] hparse (by rw [hnames]; exact hperm)
    rw [spiffeIdFromCertDer_eq hparse, hnames] at hresult
    exact scanned_injective hresult
  · intro hsame parse' leafDer' extensions' h' hperm
    rw [spiffeIdFromCertDer_eq h', hsame _ hperm]

section Example

private def webUri : Str := "spiffe://mesh.local/ns/default/sa/web".toList

private def dbUri : Str := "spiffe://mesh.local/ns/default/sa/db".toList

private def pageUri : Str := "https://web".toList

private def onlyWeb : List Extension :=
  [⟨sanOid, .subjectAlternativeName [.dns "web".toList, .uri pageUri]⟩,
    ⟨[2, 5, 29, 15], .other⟩, ⟨sanOid, .subjectAlternativeName [.uri webUri, .ip [10, 0, 0, 7]]⟩]

private def onlyWebTurned : List Extension :=
  [⟨sanOid, .subjectAlternativeName
    [.ip [10, 0, 0, 7], .uri webUri, .uri pageUri, .dns "web".toList]⟩]

theorem onlyWeb_order_free :
    (subjectAlternativeNames onlyWebTurned).Perm (subjectAlternativeNames onlyWeb) ∧
      spiffeIdFromCertDer (fun _ => .ok onlyWebTurned) [] =
        spiffeIdFromCertDer (fun _ => .ok onlyWeb) [] := by
  have hperm : (subjectAlternativeNames onlyWebTurned).Perm (subjectAlternativeNames onlyWeb) := by
    decide
  have hweb : ∀ uri id, .uri uri ∈ subjectAlternativeNames onlyWeb →
      SpiffeId.fromUri uri = .ok id → SpiffeId.fromUri webUri = .ok id := by
    intro uri id huri hid
    have hcases : uri = pageUri ∨ uri = webUri := by
      simpa [subjectAlternativeNames, Extension.generalNames, onlyWeb, sanOid] using huri
    rcases hcases with rfl | rfl
    · have hnone : (SpiffeId.fromUri pageUri).toOption = none := by decide
      rw [toOption_eq_some.mpr hid] at hnone
      cases hnone
    · exact hid
  refine ⟨hperm, (identity_order_free_iff rfl).mpr ?_ _ _ onlyWebTurned rfl hperm⟩
  intro uri uri' id id' huri huri' hid hid'
  exact Except.ok.inj ((hweb uri id huri hid).symm.trans (hweb uri' id' huri' hid'))

theorem twoUris_differ :
    [GeneralName.uri webUri, .uri dbUri].Perm [.uri dbUri, .uri webUri] ∧
      spiffeIdFromCertDer
          (fun _ => .ok [⟨sanOid, .subjectAlternativeName [.uri webUri, .uri dbUri]⟩]) [] ≠
        spiffeIdFromCertDer
          (fun _ => .ok [⟨sanOid, .subjectAlternativeName [.uri dbUri, .uri webUri]⟩]) [] := by
  decide

end Example

end Interlink
