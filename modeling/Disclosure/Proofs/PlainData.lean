import Disclosure.Proofs.JsonRequest
import Disclosure.Proofs.Legible
import Disclosure.Proofs.LoadFailures
import Disclosure.Proofs.TypedAnswers

/-!
# Disclosure.Proofs.PlainData — data in which nothing stands in the way of a report

Plain data are JSON data without surrogates.  Nothing in them stands inside itself, so any two of them can be compared;
no integer in them is too long, so all of them can be written; and whatever is written of them can be printed.  They
may be nested to any depth, as far as a run has room for it: see `Disclosure.Value`.

* `Value.IsPlain`: plain data; `Value.IsPlain.member`, `Value.IsPlain.of_mem_items`: their parts.
* `Request.isPlain_of_ofValue`, `Wallet.isPlain_of_ofValue`: requests and documents that are read from plain data.
* `Request.legible_of_isPlain`: what is explained of them is legible.
* `Request.allReported_decide`: what a decision on them fails for is reported.
-/

namespace Disclosure

open Grammar

/-! ### Values -/

/-- A scalar that a JSON file can hold, without surrogates. -/
def Scalar.IsPlain (s : Scalar) : Prop := s.IsJson ∧ s.plain.isPrintable = true

theorem Scalar.IsJson.isShowable {s : Scalar} (h : s.IsJson) : s.isShowable = true := by
  cases s with
  | int n => exact h
  | _ => rfl

namespace Value

mutual

/-- JSON data in which no text holds a surrogate; of any depth. -/
def IsPlain : Value → Prop
  | .scalar s => s.IsPlain
  | .list items => ArePlain items
  | .object fields => FieldsPlain fields
  | .pair .. | .set _ | .knot .. | .again _ => False

/-- Every item is plain. -/
def ArePlain : List Value → Prop
  | [] => True
  | v :: rest => v.IsPlain ∧ ArePlain rest

/-- Every field is named by a text and holds plain data. -/
def FieldsPlain : List (Scalar × Value) → Prop
  | [] => True
  | (name, v) :: rest => (∃ t, name = .text t) ∧ v.IsPlain ∧ FieldsPlain rest

end

theorem arePlain_iff {items : List Value} : ArePlain items ↔ ∀ v ∈ items, v.IsPlain := by
  induction items with
  | nil => simp [ArePlain]
  | cons v rest ih => simp [ArePlain, ih]

theorem fieldsPlain_iff {fields : List (Scalar × Value)} :
    FieldsPlain fields ↔ ∀ f ∈ fields, (∃ t, f.1 = .text t) ∧ f.2.IsPlain := by
  induction fields with
  | nil => simp [FieldsPlain]
  | cons f rest ih =>
    obtain ⟨name, v⟩ := f
    simp [FieldsPlain, ih, and_assoc]

mutual

theorem IsPlain.isJson : ∀ {v : Value}, v.IsPlain → v.IsJson
  | .scalar _, h => h.1
  | .list _, h => arePlain_isJson h
  | .object _, h => fieldsPlain_isJson h

theorem arePlain_isJson : ∀ {items : List Value}, ArePlain items → AreJson items
  | [], _ => trivial
  | _ :: _, ⟨hv, hrest⟩ => ⟨hv.isJson, arePlain_isJson hrest⟩

theorem fieldsPlain_isJson : ∀ {fields : List (Scalar × Value)}, FieldsPlain fields → FieldsJson fields
  | [], _ => trivial
  | _ :: _, ⟨hname, hv, hrest⟩ => ⟨hname, hv.isJson, fieldsPlain_isJson hrest⟩

end

mutual

/-- JSON data stand nowhere inside themselves. -/
theorem IsJson.isTied : ∀ {v : Value}, v.IsJson → v.isTied = false
  | .scalar _, _ => rfl
  | .list _, h => areJson_anyTied h
  | .object _, h => fieldsJson_anyFieldTied h

theorem areJson_anyTied : ∀ {items : List Value}, AreJson items → anyTied items = false
  | [], _ => rfl
  | _ :: _, ⟨hv, hrest⟩ => by rw [anyTied, hv.isTied, areJson_anyTied hrest]; rfl

theorem fieldsJson_anyFieldTied : ∀ {fields : List (Scalar × Value)}, FieldsJson fields → anyFieldTied fields = false
  | [], _ => rfl
  | _ :: _, ⟨_, hv, hrest⟩ => by rw [anyFieldTied, hv.isTied, fieldsJson_anyFieldTied hrest]; rfl

end

mutual

/-- JSON data can be written. -/
theorem IsJson.isShowable : ∀ {v : Value}, v.IsJson → v.isShowable = true
  | .scalar _, h => Scalar.IsJson.isShowable h
  | .list _, h => areJson_areShowable h
  | .object _, h => fieldsJson_fieldsShowable h

theorem areJson_areShowable : ∀ {items : List Value}, AreJson items → areShowable items = true
  | [], _ => rfl
  | _ :: _, ⟨hv, hrest⟩ => by rw [areShowable, hv.isShowable, areJson_areShowable hrest]; rfl

theorem fieldsJson_fieldsShowable : ∀ {fields : List (Scalar × Value)}, FieldsJson fields → fieldsShowable fields = true
  | [], _ => rfl
  | _ :: _, ⟨⟨_, hname⟩, hv, hrest⟩ => by
    rw [fieldsShowable, hname, hv.isShowable, fieldsJson_fieldsShowable hrest]
    rfl

end

namespace IsPlain

variable {v w : Value}

theorem isPrintable_plain (h : v.IsPlain) : v.plain.isPrintable = true := by
  cases v with
  | scalar s => exact h.2
  | _ => exact Text.isPrintable_ofString _

theorem of_untie (h : v.IsPlain) (hw : v.untie = w) : w.IsPlain := by
  cases v with
  | knot label u => exact h.elim
  | _ => exact hw ▸ h

theorem get {fields : Fields} (h : FieldsPlain fields) (name : String) : (fields.get name).IsPlain :=
  Fields.get_of_forall ⟨trivial, rfl⟩ (fun f hf => (fieldsPlain_iff.1 h f hf).2) name

theorem member (h : v.IsPlain) (name : String) : (v.member name).IsPlain := by
  unfold Value.member
  split
  · rename_i fields hobject
    exact get (h.of_untie hobject) name
  · exact ⟨trivial, rfl⟩

theorem of_mem_items (h : v.IsPlain) (hw : w ∈ v.items) : w.IsPlain := by
  unfold items at hw
  split at hw
  · rename_i items hitems
    exact arePlain_iff.1 (h.of_untie hitems) w hw
  · simp at hw

end IsPlain

end Value

/-! ### Documents -/

/-- The id can be printed, and the types are plain. -/
structure Document.IsPlain (d : Document) : Prop where
  id : d.id.isPrintable = true
  doctype : d.doctype.IsPlain
  vct : d.vct.IsPlain

namespace Document

variable {d : Document} {i : Nat} {e : Value}

theorem eq_of_ofValue (h : ofValue i e = .ok d) :
    d = ⟨(e.member "id").plain, (e.member "format").plain, e.member "doctype", e.member "vct"⟩ := by
  unfold ofValue at h
  split at h
  · rename_i fields hobject
    simp only [Value.member_of_untie hobject]
    unfold ofFields at h
    dsimp only at h
    split at h
    · cases h
    · split at h
      · cases h
      · exact (Except.ok.inj h).symm
  · cases h

theorem isPlain_of_ofValue (he : e.IsPlain) (h : ofValue i e = .ok d) : d.IsPlain := by
  rw [eq_of_ofValue h]
  exact ⟨(he.member "id").isPrintable_plain, he.member "doctype", he.member "vct"⟩

namespace IsPlain

theorem typeShown (h : d.IsPlain) : (typeShown d.doctype d.vct).IsPlain := by
  unfold Document.typeShown
  split
  · exact h.doctype
  · split
    · exact h.vct
    · exact ⟨trivial, rfl⟩

theorem isShowable (h : d.IsPlain) : d.isShowable = true := h.typeShown.isJson.isShowable

theorem isPrintable_text (h : d.IsPlain) : d.text.isPrintable = true := by
  simp only [Document.text, Text.isPrintable_append, h.id, h.typeShown.isPrintable_plain, Text.isPrintable_ofString,
    Bool.and_self]

end IsPlain

end Document

/-- The documents of plain data are plain. -/
theorem Wallet.isPlain_of_ofValue {v : Value} {wallet : Wallet} (hv : v.IsPlain) (h : Wallet.ofValue v = .ok wallet) :
    ∀ d ∈ wallet, d.IsPlain := by
  intro d hd
  obtain ⟨i, e, he, hread⟩ := (Wallet.mem_iff_holds h).1 hd
  exact Document.isPlain_of_ofValue ((hv.member "documents").of_mem_items (List.mem_of_getElem? he)) hread

/-- Plain data hide no entry. -/
theorem Wallet.not_hidesEntry_of_isPlain {v : Value} (hv : v.IsPlain) {i : Nat} : ¬ Wallet.HidesEntry v i := by
  rintro ⟨e, ⟨he, hnot, -⟩, hnamed⟩
  have hplain : e.IsPlain := (hv.member "documents").of_mem_items (List.mem_of_getElem? he)
  exact hnot ⟨hnamed, (hplain.member "id").isJson.isShowable, (hplain.member "format").isJson.isShowable⟩

/-! ### Requests -/

namespace Request

variable {v : Value} {r : Request}

/-- The formats can be printed, and the listed types and the purposes are plain. -/
structure IsPlain (r : Request) : Prop where
  formats : ∀ q ∈ r.catalogue.entries, q.format.isPrintable = true
  types : ∀ q ∈ r.catalogue.entries, ∀ w ∈ q.listedTypes, w.IsPlain
  purposes : ∀ s ∈ r.grouping.getD [], s.purpose.IsPlain

theorem isPlain_body {fields : Fields} (hv : v.IsPlain) (h : HasBody v fields) : (Value.object fields).IsPlain := by
  cases h with
  | bare hobject _ => exact hv.of_untie hobject
  | carried hobject hpresent hnested =>
    have hw := Value.IsPlain.get (hv.of_untie hobject) "dcql_query"
    rw [Fields.get, hpresent, Option.getD_some] at hw
    exact hw.of_untie hnested

theorem isPrintable_format_of_denotes {fields : Fields} {q : CredentialQuery} (hf : (Value.object fields).IsPlain)
    (h : CredentialQuery.Denotes fields q) : q.format.isPrintable = true := by
  have hformat := Value.IsPlain.get hf "format"
  rw [h.format.2] at hformat
  exact hformat.2

theorem isPlain_types_of_denotes {fields : Fields} {q : CredentialQuery} (hf : (Value.object fields).IsPlain)
    (h : CredentialQuery.Denotes fields q) : ∀ w ∈ q.listedTypes, w.IsPlain := by
  have hmetadata : (Value.object q.metadata).IsPlain := by
    rcases h.metadata with ⟨-, hnil⟩ | hobject
    · rw [hnil]
      trivial
    · exact (Value.IsPlain.get hf "meta").of_untie hobject
  intro w hw
  exact (Value.IsPlain.get hmetadata "vct_values").of_mem_items hw

/-- A request from plain data is plain. -/
theorem isPlain_of_ofValue (hv : v.IsPlain) (h : ofValue v = .ok r) : r.IsPlain := by
  obtain ⟨fields, hbody, ⟨entries, hentries, -, hall⟩, hgrouping⟩ := ofValue_eq_ok_iff.1 h
  have hf : (Value.object fields).IsPlain := isPlain_body hv hbody
  have hquery : ∀ q ∈ r.catalogue.entries, ∃ own, (Value.object own).IsPlain ∧ CredentialQuery.Denotes own q := by
    intro q hq
    obtain ⟨i, hi⟩ := List.getElem?_of_mem hq
    obtain ⟨e, he, own, hobject, hdenotes⟩ := exists_getElem?_of_forall₂ hall hi
    have hentry := Value.arePlain_iff.1 ((Value.IsPlain.get hf "credentials").of_untie hentries)
    exact ⟨own, (hentry e (List.mem_of_getElem? he)).of_untie hobject, hdenotes⟩
  refine ⟨?_, ?_, ?_⟩
  · intro q hq
    obtain ⟨own, hown, hdenotes⟩ := hquery q hq
    exact isPrintable_format_of_denotes hown hdenotes
  · intro q hq
    obtain ⟨own, hown, hdenotes⟩ := hquery q hq
    exact isPlain_types_of_denotes hown hdenotes
  · cases hg : r.grouping with
    | none => simp
    | some sets =>
      rw [hg] at hgrouping
      obtain ⟨items, hitems, hsets⟩ := hgrouping
      have hitem := Value.arePlain_iff.1 ((Value.IsPlain.get hf "credential_sets").of_untie hitems)
      intro s hs
      obtain ⟨i, hi⟩ := List.getElem?_of_mem hs
      obtain ⟨e, he, own, hobject, hdenotes⟩ := exists_getElem?_of_forall₂ hsets hi
      rw [hdenotes.purpose]
      exact Value.IsPlain.get ((hitem e (List.mem_of_getElem? he)).of_untie hobject) "purpose"

/-- What is explained of plain data is legible. -/
theorem legible_of_isPlain {documents : Wallet} (hr : r.IsPlain) (hd : ∀ d ∈ documents, d.IsPlain) :
    r.Legible documents where
  formats := hr.formats
  showable := fun d hmem => (hd d hmem).isShowable
  documents := fun d hmem => (hd d hmem).isPrintable_text
  purposes := fun s hs => ⟨(hr.purposes s hs).isJson.isShowable, (hr.purposes s hs).isPrintable_plain⟩

end Request

/-! ### Decisions -/

section Answers

variable {q : CredentialQuery} {d : Document} {wallet : Wallet} {queries : List CredentialQuery}

theorem Document.allReported_answers (hq : ∀ w ∈ q.listedTypes, w.IsPlain) (hd : d.IsPlain) :
    AllReported (d.answers q) := by
  unfold answers
  split
  · exact allReported_ok
  · split
    · split
      · exact allReported_error_iff.2 rfl
      · exact allReported_ok
    · split
      · split
        · exact allReported_error_iff.2 rfl
        · rename_i accepted haccepted
          obtain ⟨rfl, -⟩ := CredentialQuery.vctValues?_eq_some_iff.1 haccepted
          rw [Value.among?_eq_some hd.vct.isJson.isTied (fun w hw => (hq w hw).isJson.isTied)]
          exact allReported_ok
      · exact allReported_ok

theorem CredentialQuery.allReported_answers (hq : ∀ w ∈ q.listedTypes, w.IsPlain) (hw : ∀ d ∈ wallet, d.IsPlain) :
    AllReported (q.answers wallet) := by
  induction wallet with
  | nil => exact allReported_ok
  | cons d rest ih =>
    obtain ⟨hd, hrest⟩ := List.forall_mem_cons.1 hw
    exact (Document.allReported_answers hq hd).bind fun _ => (ih hrest).bind fun _ => allReported_ok

theorem allReported_answeredIds (hq : ∀ q ∈ queries, ∀ w ∈ q.listedTypes, w.IsPlain) (hw : ∀ d ∈ wallet, d.IsPlain) :
    AllReported (answeredIds wallet queries) := by
  induction queries with
  | nil => exact allReported_ok
  | cons q rest ih =>
    obtain ⟨hfirst, hrest⟩ := List.forall_mem_cons.1 hq
    exact (CredentialQuery.allReported_answers hfirst hw).bind fun _ => (ih hrest).bind fun _ => allReported_ok

/-- What a decision on plain data fails for is reported. -/
theorem Request.allReported_decide {r : Request} (hr : r.IsPlain) (hw : ∀ d ∈ wallet, d.IsPlain) (marked : List String) :
    AllReported (r.decide wallet marked) := by
  intro e he
  exact allReported_answeredIds hr.types hw e (decide_eq_error_iff.1 he)

end Answers

end Disclosure
