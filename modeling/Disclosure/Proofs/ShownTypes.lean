import Disclosure.Proofs.Accord
import Disclosure.Proofs.Knots
import Disclosure.Proofs.PlainData

/-!
# Disclosure.Proofs.ShownTypes — which type is shown for a document

A query for a mobile document is answered for the `doctype` of a document, one for an SD-JWT credential for its `vct`.
What is shown in brackets for the document does not depend on the query: it is the `doctype` if that says something, else
the `vct`, else a note.  So an SD-JWT credential is shown with the type it answers for as long as it has no `doctype`.

* `Request.wellTied_of_mem_listedTypes`, `Wallet.wellTied_of_mem`: the types in the data of files were never tied, if they
  are texts.
* `CredentialQuery.ShowsListed`: what is shown for a document that answers a query for an SD-JWT credential.
* `explained_types_requested`: the types in an explanation.
* `other_type_shown`: a document with both types.
-/

namespace Disclosure

open Grammar

/-! ### Types in the data of files -/

namespace Request

variable {v : Value} {r : Request}

theorem wellTied_of_hasBody {fields : Fields} (hv : v.WellTied) (h : HasBody v fields) :
    (Value.object fields).WellTied := by
  cases h with
  | bare hobject _ => exact hobject ▸ hv.untie
  | carried hobject hpresent hnested =>
    have hw : (v.member "dcql_query").WellTied := hv.member "dcql_query"
    rw [Value.member_of_untie hobject, Fields.get, hpresent, Option.getD_some] at hw
    exact hnested ▸ hw.untie

theorem wellTied_of_mem_listedTypes (hv : v.WellTied) (hr : ofValue v = .ok r) {q : CredentialQuery}
    (hq : q ∈ r.catalogue.entries) {w : Value} (hw : w ∈ q.listedTypes) : w.WellTied := by
  obtain ⟨i, e, ⟨fields, hbody, he⟩, -, hread, -⟩ := readFrom_of_mem_entries hr hq
  have hcredentials : (fields.get "credentials").WellTied := (wellTied_of_hasBody hv hbody).member "credentials"
  have hentry : e.WellTied := hcredentials.of_mem_items (List.mem_of_getElem? he)
  obtain ⟨own, hown, hdenotes⟩ := CredentialQuery.ofValue_eq_ok_iff.1 hread
  have hmetadata : (Value.object q.metadata).WellTied := by
    rcases hdenotes.metadata with ⟨-, hnil⟩ | hobject
    · rw [hnil]
      trivial
    · have hmeta : (e.member "meta").WellTied := hentry.member "meta"
      rw [Value.member_of_untie hown] at hmeta
      exact hobject ▸ hmeta.untie
  exact (hmetadata.member "vct_values").of_mem_items hw

end Request

theorem Wallet.wellTied_of_mem {v : Value} {wallet : Wallet} (hv : v.WellTied) (hw : Wallet.ofValue v = .ok wallet)
    {d : Document} (hd : d ∈ wallet) : d.vct.WellTied := by
  obtain ⟨i, e, he, hread⟩ := (Wallet.mem_iff_holds hw).1 hd
  rw [Document.eq_of_ofValue hread]
  exact ((hv.member "documents").of_mem_items (List.mem_of_getElem? he)).member "vct"

/-! ### One document -/

namespace Document

variable {doctype vct : Value}

theorem typeShown_of_doctype (h : doctype.isBlank = false) : typeShown doctype vct = doctype := by
  simp [typeShown, h]

theorem typeShown_of_vct (hd : doctype.isBlank = true) (hv : vct.isBlank = false) : typeShown doctype vct = vct := by
  simp [typeShown, hd, hv]

theorem typeShown_of_isBlank (hd : doctype.isBlank = true) (hv : vct.isBlank = true) :
    typeShown doctype vct = .text "N/A" := by
  simp [typeShown, hd, hv]

end Document

theorem Value.isBlank_text {t : Text} (h : t ≠ []) : (text t).isBlank = false := by
  simpa [isBlank, Scalar.isBlank] using h

namespace CredentialQuery

variable {q : CredentialQuery} {d : Document}

/-- What is shown for a document that answers a query for an SD-JWT credential.  Some listed value says the same as its
`vct`; that is what is shown if there is no `doctype`, and then it is listed whenever it is a text. -/
structure ShowsListed (q : CredentialQuery) (d : Document) (shown : Text) : Prop where
  same : ∃ w ∈ q.listedTypes, w.same? d.vct = some true ∧ ∀ t, w = .text t ↔ d.vct = .text t
  doctype : d.doctype.isBlank = false → shown = d.doctype.plain
  vct : d.doctype.isBlank = true → d.vct.isBlank = false → shown = d.vct.plain
  neither : d.doctype.isBlank = true → d.vct.isBlank = true → shown = Text.ofString "N/A"
  listed : d.doctype.isBlank = true → (∃ t, t ≠ [] ∧ d.vct = .text t) → .text shown ∈ q.listedTypes
  texts : d.doctype.isBlank = true → (∀ w ∈ q.listedTypes, ∃ t, t ≠ [] ∧ w = .text t) → .text shown ∈ q.listedTypes

theorem showsListed (hq : q.format = sdJwtFormat) (h : d.answers q = .ok true)
    (hlisted : ∀ w ∈ q.listedTypes, w.WellTied) (hvct : d.vct.WellTied) :
    q.ShowsListed d (Document.typeShown d.doctype d.vct).plain := by
  obtain ⟨w, hw, hsame⟩ := Document.exists_listed_of_answers hq h
  have htext : ∀ t, w = .text t ↔ d.vct = .text t := by
    intro t
    have huntied := Value.text_iff_of_same? hsame t
    constructor
    · rintro rfl
      exact hvct.eq_scalar_of_untie (huntied.1 rfl)
    · intro hd
      rw [hd] at huntied
      exact (hlisted w hw).eq_scalar_of_untie (huntied.2 rfl)
  have hshown : d.doctype.isBlank = true → ∀ t, t ≠ [] → d.vct = .text t →
      .text (Document.typeShown d.doctype d.vct).plain ∈ q.listedTypes := by
    intro hblank t ht hd
    have hvct : d.vct.isBlank = false := hd ▸ Value.isBlank_text ht
    rw [Document.typeShown_of_vct hblank hvct, hd]
    exact (htext t).2 hd ▸ hw
  refine ⟨⟨w, hw, hsame, htext⟩, ?_, ?_, ?_, ?_, ?_⟩
  · intro hd
    rw [Document.typeShown_of_doctype hd]
  · intro hd hv
    rw [Document.typeShown_of_vct hd hv]
  · intro hd hv
    rw [Document.typeShown_of_isBlank hd hv]
    rfl
  · rintro hblank ⟨t, ht, hd⟩
    exact hshown hblank t ht hd
  · intro hblank htexts
    obtain ⟨t, ht, hwt⟩ := htexts w hw
    exact hshown hblank t ht ((htext t).1 hwt)

end CredentialQuery

/-! ### Explanations -/

/-- **The type in brackets is the one that the query names, or else the first that the document has.**  When an explanation
succeeds, its lines show the queries of the catalogue with the documents that answer them, each with a type in brackets.
For a query for a mobile document that is the text which the query names.  For an SD-JWT credential it is a listed text
when the document has no `doctype` and its `vct` is a text that is not empty, so whenever there is no `doctype` and only
such texts are listed; a `doctype` is shown in its place. -/
theorem explained_types_requested (files : Files) (request wallet : Path)
    (h : (files.explain request (some wallet)).uptoPrintable.stop = none) :
    ∃ r documents answered, files.loadRequest request = .ok r ∧ files.loadWallet wallet = .ok documents ∧
      r.catalogue.available documents = .ok answered ∧
      (files.explain request (some wallet)).uptoPrintable.output
        = Request.credentialHeading :: r.catalogue.entries.map (fun q => q.shown documents answered) ++ r.setLines ∧
      ∀ q ∈ r.catalogue.entries, ∀ d ∈ documents.filter q.admits,
        ∃ shown, d.text = d.id ++ Text.ofString " (" ++ shown ++ Text.ofString ")" ∧
          (q.format = mobileDocumentFormat → shown ≠ [] ∧ q.metadata.get "doctype_value" = .text shown) ∧
          (q.format = sdJwtFormat → q.ShowsListed d shown) := by
  have hself : (files.explain request (some wallet)).uptoPrintable = files.explain request (some wallet) :=
    Outcome.uptoPrintable_of_stop_ne (by simp [h])
  rw [hself] at h ⊢
  obtain ⟨r, documents, answered, hr, hw, hanswered, hout⟩ := Files.explain_of_stop_none h
  refine ⟨r, documents, answered, hr, hw, hanswered, hout, fun q hq d hd => ?_⟩
  obtain ⟨hmem, hadmits⟩ := List.mem_filter.1 hd
  have hanswers : d.answers q = .ok true := CredentialQuery.admits_eq_true_iff.1 hadmits
  refine ⟨(Document.typeShown d.doctype d.vct).plain, rfl, fun hformat => ?_, fun hformat => ?_⟩
  · obtain ⟨-, t, ht, hdoctype, hnamed⟩ := (Document.answers_mobile_iff hformat).1 hanswers
    have hblank : d.doctype.isBlank = false := hdoctype ▸ Value.isBlank_text ht
    rw [Document.typeShown_of_doctype hblank, hdoctype]
    exact ⟨ht, hnamed⟩
  · obtain ⟨v, hv, hread⟩ := bind_eq_ok_iff.1 hr
    obtain ⟨u, hu, hreadWallet⟩ := bind_eq_ok_iff.1 hw
    refine CredentialQuery.showsListed hformat hanswers (fun w hw => ?_) ?_
    · exact Request.wellTied_of_mem_listedTypes (Files.wellTied_of_loadValue hv) (mapError_eq_ok_iff.1 hread) hq hw
    · exact Wallet.wellTied_of_mem (Files.wellTied_of_loadValue hu) (mapError_eq_ok_iff.1 hreadWallet) hmem

/-! ### One listed type -/

def typedText : String := "credentials: [\x7bid: a, format: dc+sd-jwt, meta: \x7bvct_values: [pid]\x7d\x7d]"

def typedQuery : CredentialQuery :=
  { id := "a", format := "dc+sd-jwt", metadata := [(.text "vct_values", .list [.text "pid"])] }

theorem listedTypes_typedQuery : typedQuery.listedTypes = [.text "pid"] := rfl

/-- A request for an SD-JWT credential of one type. -/
def typedRequest : Request := ⟨⟨[typedQuery], by decide⟩, none, rfl⟩

def cardText : String := "documents: [\x7bid: d1, format: dc+sd-jwt, vct: pid\x7d]"

def cardData : Value :=
  .object [(.text "documents", .list
    [.object [(.text "id", .text "d1"), (.text "format", .text "dc+sd-jwt"), (.text "vct", .text "pid")]])]

/-- A document of that type. -/
def card : Document := { id := "d1", format := "dc+sd-jwt", vct := .text "pid" }

theorem ofYaml_typedText : Value.ofYaml (Text.unifyLineEnds typedText.toList) = .ok typedRequest.toValue := by
  decide +kernel

theorem ofYaml_cardText : Value.ofYaml (Text.unifyLineEnds cardText.toList) = .ok cardData := by
  decide +kernel

def cardFiles : Files := .ofTexts [(requestPath, typedText), (walletPath, cardText)]

theorem loadRequest_cardFiles : cardFiles.loadRequest requestPath = .ok typedRequest :=
  Files.loadRequest_ofTexts (by simp) ofYaml_typedText rfl

theorem loadWallet_cardFiles : cardFiles.loadWallet walletPath = .ok [card] :=
  Files.loadWallet_ofTexts rfl ofYaml_cardText rfl

/-- The document is shown with the listed type. -/
theorem explained_types_requested_card :
    (cardFiles.explain requestPath (some walletPath)).uptoPrintable.stop = none ∧
      card ∈ [card].filter typedQuery.admits ∧
      ∃ shown, card.text = card.id ++ Text.ofString " (" ++ shown ++ Text.ofString ")" ∧
        .text shown ∈ typedQuery.listedTypes := by
  obtain ⟨hout, hstop⟩ := Files.explain_of_loaded loadRequest_cardFiles loadWallet_cardFiles
  have hsuccess : (cardFiles.explain requestPath (some walletPath)).uptoPrintable.stop = none := by
    have hall : (cardFiles.explain requestPath (some walletPath)).output.all Line.isPrintable = true := by
      rw [hout]
      rfl
    rw [Outcome.uptoPrintable_of_all hall, hstop]
    rfl
  have hcard : card ∈ [card].filter typedQuery.admits := List.mem_filter.2 ⟨List.mem_singleton_self _, rfl⟩
  obtain ⟨r, documents, answered, hr, hw, -, -, htypes⟩ :=
    explained_types_requested cardFiles requestPath walletPath hsuccess
  obtain rfl := Except.ok.inj (loadRequest_cardFiles.symm.trans hr)
  obtain rfl := Except.ok.inj (loadWallet_cardFiles.symm.trans hw)
  obtain ⟨shown, htext, -, hlisted⟩ := htypes typedQuery (List.mem_singleton_self _) card hcard
  refine ⟨hsuccess, hcard, shown, htext, (hlisted rfl).texts rfl ?_⟩
  rw [listedTypes_typedQuery]
  exact List.forall_mem_singleton.2 ⟨_, by decide, rfl⟩

/-- The data of a wallet with a document that has both types. -/
def doubleData : Value :=
  .object [(.text "documents", .list
    [.object [(.text "id", .text "d1"), (.text "format", .text "dc+sd-jwt"), (.text "doctype", .text "card"),
      (.text "vct", .text "pid")]])]

/-- The document answers the query for its `vct`, and is shown with its `doctype`, which is not listed. -/
theorem other_type_shown :
    ∃ d : Document, Request.ofValue typedRequest.toValue = .ok typedRequest ∧ Wallet.ofValue doubleData = .ok [d] ∧
      typedQuery ∈ typedRequest.catalogue.entries ∧ typedQuery.format = sdJwtFormat ∧
      d ∈ [d].filter typedQuery.admits ∧ (typedRequest.explanation (some [d])).stop = none ∧
      (typedRequest.explanation (some [d])).output
        = Request.credentialHeading
          :: [.plain "  a  ", .dim "dc+sd-jwt", .plain "  <- ", .green "d1 (card)"] :: typedRequest.setLines ∧
      d.text = Text.ofString "d1 (card)" ∧
      ∀ w ∈ typedQuery.listedTypes, d.text ≠ d.id ++ Text.ofString " (" ++ w.plain ++ Text.ofString ")" := by
  refine ⟨_, rfl, rfl, List.mem_singleton_self _, rfl, List.mem_filter.2 ⟨List.mem_singleton_self _, rfl⟩, rfl, rfl,
    rfl, ?_⟩
  rw [listedTypes_typedQuery]
  exact List.forall_mem_singleton.2 (by decide)

end Disclosure
