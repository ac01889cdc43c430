import Disclosure.Proofs.Runs

/-!
# Disclosure.Proofs.LoadFailures — which failures of loading are reported

Loading fails for the file, for the request in it, or for the wallet in it.  The readers of requests only have failures
that are reported.  What nobody is shown comes before the data: a name that no file has, bytes that are not UTF-8, a text
with a flaw; and, in a wallet, an entry with a name that is an integer too long to be written.

* `Request.allReported_ofValue`: data that are no request are refused with a reason.
* `Wallet.ofValue_eq_notShowable_iff`: the one reason for which a wallet is refused without one.
* `Files.loadRequest_hidden_iff`, `Files.loadWallet_hidden_iff`: the failures without a wording, from the bytes of the file
  and the data in it.
-/

namespace Disclosure

open Grammar

/-! ### Reasons of the readers -/

section Reported

variable {α β : Type} {x : Except RequestError α} {e : RequestError}

/-- Whatever this fails for is reported. -/
def AllReported {α : Type} (x : Except RequestError α) : Prop := ∀ e, x = .error e → e.isReported = true

@[simp]
theorem allReported_ok {a : α} : AllReported (.ok a : Except RequestError α) := by
  intro e he
  cases he

@[simp]
theorem allReported_error_iff : AllReported (.error e : Except RequestError α) ↔ e.isReported = true := by
  simp [AllReported]

theorem AllReported.bind {f : α → Except RequestError β} (hx : AllReported x) (hf : ∀ a, AllReported (f a)) :
    AllReported (x >>= f) := by
  intro e he
  rcases bind_eq_error_iff.1 he with h | ⟨a, -, h⟩
  · exact hx e h
  · exact hf a e h

theorem AllReported.readEach {read : Nat → α → Except RequestError β} (h : ∀ i a, AllReported (read i a)) {i : Nat}
    {as : List α} : AllReported (readEach read i as) := by
  induction as generalizing i with
  | nil => exact allReported_ok
  | cons a rest ih =>
    intro e he
    rw [Disclosure.readEach] at he
    split at he
    · rename_i e' ha
      cases he
      exact h i a e ha
    · split at he
      · rename_i e' hrest
        cases he
        exact ih e hrest
      · cases he

end Reported

section Readers

variable {v : Value} {fields : Fields} {place : Place}

theorem QueryId.allReported_ofValue : AllReported (QueryId.ofValue v place) := by
  unfold QueryId.ofValue
  split
  · simp [RequestError.isReported]
  · split <;> simp [RequestError.isReported]

namespace CredentialQuery

theorem allReported_readFormat : AllReported (readFormat fields place) := by
  unfold readFormat
  split <;> simp [RequestError.isReported]

theorem allReported_readMetadata : AllReported (readMetadata fields place) := by
  unfold readMetadata
  split <;> simp [RequestError.isReported]

theorem allReported_readClaims : AllReported (readClaims fields place) := by
  unfold readClaims
  split
  · exact allReported_ok
  · split <;> simp [RequestError.isReported]
  · simp [RequestError.isReported]

theorem allReported_readMultiple : AllReported (readMultiple fields place) := by
  unfold readMultiple
  split <;> simp [RequestError.isReported]

theorem allReported_ofValue : AllReported (CredentialQuery.ofValue v place) := by
  unfold CredentialQuery.ofValue
  split
  · exact QueryId.allReported_ofValue.bind fun _ => allReported_readFormat.bind fun _ =>
      allReported_readMetadata.bind fun _ => allReported_readClaims.bind fun _ =>
        allReported_readMultiple.bind fun _ => allReported_ok
  · simp [RequestError.isReported]

end CredentialQuery

theorem Catalogue.allReported_ofValue : AllReported (Catalogue.ofValue v) := by
  unfold Catalogue.ofValue
  split
  · refine AllReported.bind (.readEach fun _ _ => CredentialQuery.allReported_ofValue) fun queries => ?_
    unfold Catalogue.ofList
    split <;> simp [RequestError.isReported]
  · simp [RequestError.isReported]

theorem Combination.allReported_ofValue : AllReported (Combination.ofValue v place) := by
  unfold Combination.ofValue
  split
  · refine AllReported.bind (.readEach fun _ _ => QueryId.allReported_ofValue) fun ids => ?_
    unfold Combination.ofIds
    split <;> simp [RequestError.isReported]
  · simp [RequestError.isReported]

namespace CredentialSet

theorem allReported_readOptions : AllReported (readOptions fields place) := by
  unfold readOptions
  split
  · exact .readEach fun _ _ => Combination.allReported_ofValue
  · simp [RequestError.isReported]

theorem allReported_readRequired : AllReported (readRequired fields place) := by
  unfold readRequired
  split <;> simp [RequestError.isReported]

theorem allReported_ofOptions {options : List Combination} {flag purpose : Value} :
    AllReported (ofOptions options flag purpose) := by
  unfold ofOptions
  split
  · simp [RequestError.isReported]
  · refine AllReported.bind ?_ fun _ => allReported_ok
    unfold readFlag
    split <;> simp [RequestError.isReported]

theorem allReported_ofValue : AllReported (CredentialSet.ofValue v place) := by
  unfold CredentialSet.ofValue
  split
  · exact allReported_readOptions.bind fun _ => allReported_readRequired.bind fun _ => allReported_ofOptions
  · simp [RequestError.isReported]

end CredentialSet

theorem Grouping.allReported_ofValue : AllReported (Grouping.ofValue v) := by
  unfold Grouping.ofValue
  split
  · exact allReported_ok
  · exact AllReported.bind (.readEach fun _ _ => CredentialSet.allReported_ofValue) fun _ => allReported_ok
  · simp [RequestError.isReported]

namespace Request

theorem allReported_body : AllReported (body v) := by
  unfold body
  split
  · split
    · exact allReported_ok
    · split <;> simp [RequestError.isReported]
  · simp [RequestError.isReported]

theorem allReported_ofParts {c : Catalogue} {g : Grouping} : AllReported (ofParts c g) := by
  unfold ofParts
  split <;> simp [RequestError.isReported]

/-- Data that are no request are refused with a reason. -/
theorem allReported_ofValue : AllReported (Request.ofValue v) :=
  allReported_body.bind fun _ => Catalogue.allReported_ofValue.bind fun _ => Grouping.allReported_ofValue.bind fun _ =>
    allReported_ofParts

end Request

end Readers

/-! ### Reasons of wallets -/

namespace Document

variable {e : Value} {i j : Nat}

/-- The entry has an id and a format. -/
def IsNamed (e : Value) : Prop := (e.member "id").isBlank = false ∧ (e.member "format").isBlank = false

/-- The id and the format of the entry can be written. -/
def HasShowableNames (e : Value) : Prop := (e.member "id").isShowable = true ∧ (e.member "format").isShowable = true

theorem not_isNamed_of_untie (h : ∀ fields, e.untie ≠ .object fields) : ¬ IsNamed e := by
  simp [IsNamed, Value.member_eq_null h "id", Value.isBlank, Scalar.isBlank]

theorem exists_ofValue_iff : (∃ d, ofValue i e = .ok d) ↔ IsNamed e ∧ HasShowableNames e := by
  unfold ofValue
  split
  · rename_i fields hobject
    simp only [IsNamed, HasShowableNames, Value.member_of_untie hobject, ofFields]
    cases (Fields.get fields "id").isBlank <;> cases (Fields.get fields "format").isBlank <;>
      cases (Fields.get fields "id").isShowable <;> cases (Fields.get fields "format").isShowable <;> simp
  · rename_i hother
    simp [not_isNamed_of_untie hother]

theorem ofValue_eq_notShowable_iff :
    ofValue i e = .error (.entryNotShowable j) ↔ IsNamed e ∧ ¬ HasShowableNames e ∧ i = j := by
  unfold ofValue
  split
  · rename_i fields hobject
    simp only [IsNamed, HasShowableNames, Value.member_of_untie hobject, ofFields]
    cases (Fields.get fields "id").isBlank <;> cases (Fields.get fields "format").isBlank <;>
      cases (Fields.get fields "id").isShowable <;> cases (Fields.get fields "format").isShowable <;> simp
  · rename_i hother
    simp [not_isNamed_of_untie hother]

end Document

namespace Wallet

variable {v : Value} {i : Nat}

/-- The first entry that is no document has an id and a format, one of which cannot be written. -/
def HidesEntry (v : Value) (i : Nat) : Prop :=
  ∃ e, FirstWithout (fun e => Document.IsNamed e ∧ Document.HasShowableNames e) (v.member "documents").items i e ∧
    Document.IsNamed e

theorem not_hidesEntry_of_items (h : (v.member "documents").items = []) : ¬ HidesEntry v i := by
  rintro ⟨e, ⟨he, -⟩, -⟩
  rw [h] at he
  cases he

theorem ofValue_eq_notShowable_iff : ofValue v = .error (.entryNotShowable i) ↔ HidesEntry v i := by
  unfold ofValue
  split
  · rename_i hnull
    refine iff_of_false (by simp) (not_hidesEntry_of_items ?_)
    simp [Value.member, hnull, Value.items]
  · rename_i fields hobject
    have hmember := Value.member_of_untie hobject "documents"
    unfold ofFields
    dsimp only
    split
    · rename_i hblank
      refine iff_of_false (by simp) (not_hidesEntry_of_items ?_)
      rw [hmember, Value.items_of_isBlank hblank]
    · split
      · rename_i items hitems
        have hread : ∀ j e, (∃ d, Document.ofValue j e = .ok d) ↔ Document.IsNamed e ∧ Document.HasShowableNames e :=
          fun _ _ => Document.exists_ofValue_iff
        rw [HidesEntry, hmember, Value.items_of_untie hitems, readEach_eq_error_iff hread]
        simp only [Document.ofValue_eq_notShowable_iff, Nat.zero_add]
        constructor
        · rintro ⟨j, e, hfirst, hnamed, -, rfl⟩
          exact ⟨e, hfirst, hnamed⟩
        · rintro ⟨e, hfirst, hnamed⟩
          exact ⟨i, e, hfirst, hnamed, fun hshowable => hfirst.2.1 ⟨hnamed, hshowable⟩, rfl⟩
      · rename_i hother
        refine iff_of_false (by simp) (not_hidesEntry_of_items ?_)
        rw [hmember, Value.items_eq_nil hother]
  · rename_i hnull hother
    refine iff_of_false (by simp) (not_hidesEntry_of_items ?_)
    rw [Value.member_eq_null hother]
    rfl

end Wallet

/-! ### Failures of loading -/

namespace Failure

/-- It is reported that the file cannot be read, that its text is neither JSON nor YAML, or that its data are no
wallet. -/
def IsOfFile (f : Failure) : Prop :=
  (∃ path fault, fault ≠ .noName ∧ f = .unreadable path fault) ∨ (∃ path fault, f = .unparsable path fault) ∨
    ∃ e : WalletError, e.isReported = true ∧ f = .wallet e

/-- It is reported that the data are no request. -/
def IsOfRequest (f : Failure) : Prop := ∃ e : RequestError, e.isReported = true ∧ f = .request e

theorem exists_message_iff {f : Failure} : (∃ m, f.message? = some m) ↔ f.IsOfFile ∨ f.IsOfRequest := by
  cases f with
  | unreadable path fault => cases fault <;> simp [message?, IsOfFile, IsOfRequest, ReadFault.message?]
  | undecodable path => simp [message?, IsOfFile, IsOfRequest]
  | unparsable path fault => simp [message?, IsOfFile]
  | flawed path flaw => simp [message?, IsOfFile, IsOfRequest]
  | request e => cases h : e.isReported <;> simp [message?, IsOfFile, IsOfRequest, h]
  | wallet e => cases h : e.isReported <;> simp [message?, IsOfFile, IsOfRequest, h]

end Failure

namespace Files

variable {files : Files} {path : Path} {f : Failure}

/-- The fault that is found in the characters that are known before bad bytes are noticed. -/
def knownFault? (bytes : ByteArray) : Option Yaml.Fault :=
  let known := Text.handedOn bytes.data.toList
  (Yaml.forbidden? known).or (Yaml.startFault? known)

/-- What nobody is shown when a file cannot be loaded, from the path and the bytes: a name that no file has, bytes that are
not UTF-8, and a flaw in the text or before the bad bytes. -/
inductive Hides (files : Files) (path : Path) : Failure → Prop
  | noName (unread : files path = .error .noName) : Hides files path (.unreadable path .noName)
  | badBytes {bytes : ByteArray} (read : files path = .ok bytes) (bad : String.fromUTF8? bytes = none)
    (before : knownFault? bytes = none) : Hides files path (.undecodable path)
  | flawedStart {bytes : ByteArray} {fault : Yaml.Fault} {flaw : Yaml.Flaw} (read : files path = .ok bytes)
    (bad : String.fromUTF8? bytes = none) (before : knownFault? bytes = some fault)
    (cause : fault.cause.flaw? = some flaw) : Hides files path (.flawed path flaw)
  | flawedText {bytes : ByteArray} {s : String} {fault : Yaml.Fault} {flaw : Yaml.Flaw} (read : files path = .ok bytes)
    (decoded : String.fromUTF8? bytes = some s) (spelled : Value.ofYaml (Text.unifyLineEnds s.toList) = .error fault)
    (cause : fault.cause.flaw? = some flaw) : Hides files path (.flawed path flaw)

theorem ofFault_of_flaw {fault : Yaml.Fault} {flaw : Yaml.Flaw} (h : fault.cause.flaw? = some flaw) :
    Failure.ofFault path fault = .flawed path flaw := by
  rw [Failure.ofFault, h]

/-- Of the faults of a text only flaws are hidden. -/
theorem message?_ofFault_eq_none_iff {fault : Yaml.Fault} :
    (Failure.ofFault path fault).message? = none ↔ ∃ flaw, fault.cause.flaw? = some flaw := by
  unfold Failure.ofFault
  cases fault.cause.flaw? <;> simp [Failure.message?]

theorem ofBytes_of_some {bytes : ByteArray} {fault : Yaml.Fault} (h : knownFault? bytes = some fault) :
    Failure.ofBytes path bytes = .ofFault path fault := by
  unfold knownFault? at h
  rw [Failure.ofBytes, h]

theorem ofBytes_of_none {bytes : ByteArray} (h : knownFault? bytes = none) :
    Failure.ofBytes path bytes = .undecodable path := by
  unfold knownFault? at h
  rw [Failure.ofBytes, h]

theorem Hides.message?_eq_none (h : files.Hides path f) : f.message? = none := by
  cases h <;> rfl

theorem Hides.loadValue (h : files.Hides path f) : files.loadValue path = .error f := by
  unfold Files.loadValue
  cases h with
  | noName hread => rw [hread]
  | badBytes hread hbad hnone => simp only [hread, hbad, ofBytes_of_none hnone]
  | flawedStart hread hbad hsome hflaw => simp only [hread, hbad, ofBytes_of_some hsome, ofFault_of_flaw hflaw]
  | flawedText hread hdecoded hfault hflaw =>
    simp only [hread, hdecoded, hfault, Except.mapError, ofFault_of_flaw hflaw]

theorem hides_of_loadValue (h : files.loadValue path = .error f) (hhidden : f.message? = none) : files.Hides path f := by
  unfold Files.loadValue at h
  split at h
  · rename_i fault hread
    cases h
    cases fault with
    | noName => exact .noName hread
    | _ => cases hhidden
  · rename_i bytes hread
    split at h
    · rename_i hbad
      cases h
      cases hknown : knownFault? bytes with
      | none =>
        rw [ofBytes_of_none hknown]
        exact .badBytes hread hbad hknown
      | some fault =>
        rw [ofBytes_of_some hknown] at hhidden ⊢
        obtain ⟨flaw, hflaw⟩ := message?_ofFault_eq_none_iff.1 hhidden
        rw [ofFault_of_flaw hflaw]
        exact .flawedStart hread hbad hknown hflaw
    · rename_i s hdecoded
      obtain ⟨fault, hfault, rfl⟩ := mapError_eq_error_iff.1 h
      obtain ⟨flaw, hflaw⟩ := message?_ofFault_eq_none_iff.1 hhidden
      rw [ofFault_of_flaw hflaw]
      exact .flawedText hread hdecoded hfault hflaw

theorem ofFault_ne_request {fault : Yaml.Fault} {e : RequestError} : Failure.ofFault path fault ≠ .request e := by
  unfold Failure.ofFault
  split <;> simp

/-- A file without data is no refused request. -/
theorem loadValue_ne_request {e : RequestError} : files.loadValue path ≠ .error (.request e) := by
  intro h
  unfold Files.loadValue at h
  split at h
  · cases h
  · rename_i bytes hread
    split at h
    · have hbytes : Failure.ofBytes path bytes = .request e := Except.error.inj h
      cases hknown : knownFault? bytes with
      | none =>
        rw [ofBytes_of_none hknown] at hbytes
        cases hbytes
      | some fault =>
        rw [ofBytes_of_some hknown] at hbytes
        exact ofFault_ne_request hbytes
    · obtain ⟨fault, -, hfault⟩ := mapError_eq_error_iff.1 h
      exact ofFault_ne_request hfault.symm

theorem loadRequest_eq_error_iff : files.loadRequest path = .error f ↔
    files.loadValue path = .error f ∨
      ∃ v, files.loadValue path = .ok v ∧ ∃ e, Request.ofValue v = .error e ∧ f = .request e := by
  simp only [loadRequest, bind_eq_error_iff, mapError_eq_error_iff]

theorem loadWallet_eq_error_iff : files.loadWallet path = .error f ↔
    files.loadValue path = .error f ∨
      ∃ v, files.loadValue path = .ok v ∧ ∃ e, Wallet.ofValue v = .error e ∧ f = .wallet e := by
  simp only [loadWallet, bind_eq_error_iff, mapError_eq_error_iff]

/-- A request fails to load without a reason exactly when its file does. -/
theorem loadRequest_hidden_iff (h : files.loadRequest path = .error f) : f.message? = none ↔ files.Hides path f := by
  constructor
  · intro hhidden
    rcases loadRequest_eq_error_iff.1 h with hvalue | ⟨v, -, e, he, rfl⟩
    · exact hides_of_loadValue hvalue hhidden
    · rw [Failure.message?, if_pos (Request.allReported_ofValue e he)] at hhidden
      cases hhidden
  · exact Hides.message?_eq_none

/-- A wallet fails to load without a reason exactly when its file does, or when it hides an entry. -/
theorem loadWallet_hidden_iff (h : files.loadWallet path = .error f) : f.message? = none ↔
    files.Hides path f ∨
      ∃ v i, files.loadValue path = .ok v ∧ Wallet.HidesEntry v i ∧ f = .wallet (.entryNotShowable i) := by
  constructor
  · intro hhidden
    rcases loadWallet_eq_error_iff.1 h with hvalue | ⟨v, hv, e, he, rfl⟩
    · exact Or.inl (hides_of_loadValue hvalue hhidden)
    · right
      cases e with
      | entryNotShowable i => exact ⟨v, i, hv, Wallet.ofValue_eq_notShowable_iff.1 he, rfl⟩
      | _ => cases hhidden
  · rintro (hhides | ⟨v, i, -, -, rfl⟩)
    · exact hhides.message?_eq_none
    · rfl

/-- What is reported about a request that cannot be loaded is about the file or the request in it. -/
theorem cases_of_loadRequest (h : files.loadRequest path = .error f) :
    f.IsOfFile ∨ f.IsOfRequest ∨ files.Hides path f := by
  cases hm : f.message? with
  | none => exact Or.inr (Or.inr ((loadRequest_hidden_iff h).1 hm))
  | some m =>
    rcases Failure.exists_message_iff.1 ⟨m, hm⟩ with hfile | hrequest
    · exact Or.inl hfile
    · exact Or.inr (Or.inl hrequest)

/-- What is reported about a wallet that cannot be loaded is about the file. -/
theorem isOfFile_of_loadWallet (h : files.loadWallet path = .error f) {m : Text} (hm : f.message? = some m) :
    f.IsOfFile := by
  rcases Failure.exists_message_iff.1 ⟨m, hm⟩ with hfile | ⟨e, -, rfl⟩
  · exact hfile
  · rcases loadWallet_eq_error_iff.1 h with hvalue | ⟨v, -, e', -, heq⟩
    · exact absurd hvalue loadValue_ne_request
    · cases heq

end Files

end Disclosure
